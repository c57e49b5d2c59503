import Pytitect.SqlAlchemy.Workflows

namespace Pytitect.WorkflowTables
open RowLocks
variable {i : Nat} {d : Database WorkflowTables WorkflowWrite WorkflowRow} {frame : WorkflowTables → Prop}
  {K : Database WorkflowTables WorkflowWrite WorkflowRow → Prop} {except : Option Unsettled} {tables : WorkflowTables}
  {key : ProcessKey}

/-- The decision that a state shows is among those that were applied, under its version. -/
def Applied (key : ProcessKey) (state : ProcessState) (applied : AppliedDecision) (tables : WorkflowTables) : Prop :=
  (tables.process key).decisions[state.version - 1]? = some applied ∧ state.state = applied.decision.state ∧
    state.status = applied.decision.status

/-- A state that was loaded shows some decision. -/
def Shown (key : ProcessKey) (found : Option ProcessState) (tables : WorkflowTables) : Prop :=
  ∀ state, found = some state → ∃ applied, Applied key state applied tables

/-- A message has led to one decision, and what became of it. -/
def Handled (identity : InboxIdentity) (key : ProcessKey) (version : Nat) (tables : WorkflowTables) : Prop :=
  (tables.message identity).handled = some (key, version)

def Completed (identity : InboxIdentity) (at_ : Int) (tables : WorkflowTables) : Prop :=
  ∃ entry, (tables.message identity).entry = some entry ∧ entry.completedAt = some at_

/-- The claim was given under its token, for a timer that is scheduled as it says. -/
structure Claimed (claim : ProcessTimerClaim) (tables : WorkflowTables) : Prop where
  numbered : 0 < claim.timer.fencingToken
  given : (tables.timer claim.timer.identity).claims[claim.timer.fencingToken - 1]? = some (claim.claimId, claim.claimedUntil)
  scheduled : ∃ stored, (tables.timer claim.timer.identity).stored = some stored ∧
    claim.timer = { stored.value with fencingToken := claim.timer.fencingToken }

/-- The timer has ended by its last claim, and the effect of the claim is all that was saved for it. -/
structure Fired (claim : ProcessTimerClaim) (tables : WorkflowTables) : Prop where
  ended : ∃ stored, (tables.timer claim.timer.identity).stored = some stored ∧ stored.terminal = true
  effects : (tables.timer claim.timer.identity).effects = [claim.timer.effect]
  last : (tables.timer claim.timer.identity).claims.getLast? = some (claim.claimId, claim.claimedUntil)
  numbered : (tables.timer claim.timer.identity).claims.length = claim.timer.fencingToken

theorem lasting_applied (key : ProcessKey) (state : ProcessState) (applied : AppliedDecision) :
    Lasting discipline (Applied key state applied) := by
  intro s t grown shown
  have longer : (s.process key).decisions <+: (t.process key).decisions := ProcessPart.Grows.decisions (grown (.process key))
  exact ⟨found_longer longer shown.1, shown.2⟩

theorem lasting_shown (key : ProcessKey) (found : Option ProcessState) : Lasting discipline (Shown key found) := by
  intro s t grown shown state same
  obtain ⟨applied, holds⟩ := shown state same
  exact ⟨applied, lasting_applied key state applied s t grown holds⟩

theorem lasting_handled (identity : InboxIdentity) (key : ProcessKey) (version : Nat) :
    Lasting discipline (Handled identity key version) :=
  fun _ _ grown handled => MessagePart.Grows.handled (grown (.message identity)) _ handled

theorem lasting_completed (identity : InboxIdentity) (at_ : Int) : Lasting discipline (Completed identity at_) := by
  intro s t grown completed
  obtain ⟨entry, found, isCompleted⟩ := completed
  have same : t.message identity = s.message identity := MessagePart.Grows.completed (grown (.message identity)) entry at_ found isCompleted
  refine ⟨entry, ?_, isCompleted⟩
  rw [same]
  exact found

theorem lasting_claimed (claim : ProcessTimerClaim) : Lasting discipline (Claimed claim) := by
  intro s t grown claimed
  have grows : TimerPart.Grows (s.timer claim.timer.identity) (t.timer claim.timer.identity) := grown (.timer claim.timer.identity)
  obtain ⟨stored, found, same⟩ := claimed.scheduled
  obtain ⟨later, foundLater, sameLater⟩ := grows.stored stored found
  refine ⟨claimed.numbered, found_longer grows.claims claimed.given, later, foundLater, ?_⟩
  rw [sameLater]
  exact same

theorem lasting_fired (claim : ProcessTimerClaim) : Lasting discipline (Fired claim) := by
  intro s t grown fired
  obtain ⟨stored, found, ended⟩ := fired.ended
  have same : t.timer claim.timer.identity = s.timer claim.timer.identity :=
    TimerPart.Grows.ended (grown (.timer claim.timer.identity)) stored found ended
  refine ⟨⟨stored, ?_, ended⟩, ?_, ?_, ?_⟩
  · rw [same]
    exact found
  · rw [same]
    exact fired.effects
  · rw [same]
    exact fired.last
  · rw [same]
    exact fired.numbered

/-- A session goes on knowing its tables to be good apart from what it is in the middle of. -/
theorem enduring_open (except : Option Unsettled) (lasting : Lasting discipline frame) :
    Enduring discipline fun tables => Good except tables ∧ frame tables := by
  have enduring : Enduring discipline (Good except) := fun _ _ _ good committed furthest => good.merge committed furthest
  exact enduring.and lasting.enduring

theorem Good.weaken (good : Good none tables) (except : Option Unsettled) : Good except tables :=
  ⟨fun name _ => good.processes name (by simp), fun identity _ => good.timers identity (by simp), good.messages,
    fun name index applied identity found isFor _ => good.handled name index applied identity found isFor (by simp)⟩

theorem frame_write {write : WorkflowWrite} (lasting : Lasting discipline frame) (framed : frame tables)
    (grows : Grows write.row (tables.part write.row) ((write.apply tables).part write.row)) : frame (write.apply tables) := by
  have only : ∀ row, schema.touches write row → row = write.row := fun _ touches => touches.symm
  exact lasting _ _ (grown_of_grows only grows) framed

/-- What session `i` knows in the middle of a call. -/
abbrev Amid (i : Nat) (K : Database WorkflowTables WorkflowWrite WorkflowRow → Prop) (except : Option Unsettled)
    (frame : WorkflowTables → Prop) (d : Database WorkflowTables WorkflowWrite WorkflowRow) : Prop :=
  K d ∧ (Good except (d.view WorkflowWrite.apply i) ∧ frame (d.view WorkflowWrite.apply i))

theorem Amid.stays {rows : WorkflowRow → Prop} (lasting : Lasting discipline frame) (beside : Beside discipline i rows K) :
    Stays discipline i (Amid i K except frame) :=
  beside.stays.and (enduring_open except lasting).stays

section Timers
variable {identity : TimerIdentity}

/-- A timer is written that had not ended before. -/
theorem timer_keeps {write : WorkflowWrite} (later : Option Unsettled) (own : write.row = .timer identity)
    (lasting : Lasting discipline frame) (open_ : Good except tables ∧ frame tables)
    (only : ∀ unsettled, except = some unsettled → later ≠ some unsettled → unsettled = .timer identity)
    (running : ∀ before, (tables.timer identity).stored = some before → before.terminal = false)
    (consistent : later ≠ some (.timer identity) → ((write.apply tables).timer identity).Consistent identity)
    (claims : (tables.timer identity).claims <+: ((write.apply tables).timer identity).claims)
    (scheduled : ∀ before, (tables.timer identity).stored = some before → ∃ later,
      ((write.apply tables).timer identity).stored = some later ∧
      later.value = { before.value with fencingToken := later.value.fencingToken }) :
    TimerPart.Grows (tables.timer identity) ((write.apply tables).timer identity) ∧
      Good later (write.apply tables) ∧ frame (write.apply tables) := by
  have grows : TimerPart.Grows (tables.timer identity) ((write.apply tables).timer identity) := by
    refine ⟨scheduled, claims, fun before found ended => ?_⟩
    rw [running before found] at ended
    cases ended
  have part : Grows (.timer identity) (tables.part (.timer identity)) ((write.apply tables).part (.timer identity)) := grows
  refine ⟨grows, open_.1.of_timer own consistent only, ?_⟩
  rw [← own] at part
  exact frame_write lasting open_.2 part

theorem cancelTimer_safe {timerId : String} (settled : except ≠ some (.timer (key, timerId))) (lasting : Lasting discipline frame)
    (beside : Beside discipline i (· = .timer (key, timerId)) K) (now : Amid i K except frame d) :
    (protocol discipline).Safe i (Ends fun _ => Amid i K except frame) (ProcessStatements.cancelTimer i key timerId) d := by
  have written : (protocol discipline).Safe i
      (Ends fun written d => K d ∧ (Good except (d.view WorkflowWrite.apply i) ∧ frame (d.view WorkflowWrite.apply i)) ∧
        (written = true → Holds schema i (.timer (key, timerId)) (fun _ => True) d))
      (ProcessStatements.cancelTimer i key timerId) d := by
    refine safe_write_beside (enduring_open except lasting) (fun _ => enduring_open except lasting) beside (fun _ open_ _ => open_)
      (fun s w open_ found => ?_) now
    obtain ⟨stored, chosen, rfl⟩ := Option.map_eq_some_iff.mp found
    obtain ⟨isStored, unended⟩ := Option.filter_eq_some_iff.mp chosen
    have consistent := open_.1.timers _ settled
    have before : ∀ other, (s.timer (key, timerId)).stored = some other → other = stored :=
      fun other same => Option.some.inj (same.symm.trans isStored)
    have running : ∀ other, (s.timer (key, timerId)).stored = some other → other.terminal = false := by
      intro other same
      rw [before other same]
      simpa using unended
    have token : stored.value.fencingToken = (s.timer (key, timerId)).claims.length := by
      rw [← consistent.counted, show (s.timer (key, timerId)).stored = some stored from isStored]
      rfl
    have write : (WorkflowWrite.saveTimer (key, timerId) stored.end).row = .timer (key, timerId) := rfl
    obtain ⟨grows, after⟩ := timer_keeps except write lasting open_ (fun _ same other => absurd same other) running
      (fun _ => by
        rw [timer_saveTimer]
        refine ⟨Or.inl (consistent.unfired running), token, fun other same => ?_, fun other same unended => ?_⟩
        · cases same
          exact consistent.named stored isStored
        · cases same
          cases unended)
      (by
        rw [timer_saveTimer])
      (by
        intro other same
        rw [before other same, timer_saveTimer]
        exact ⟨stored.end, rfl, rfl⟩)
    exact ⟨fun _ touches => touches.symm, grows, after, trivial⟩
  exact safe_weaken written fun _ _ known => ⟨known.1, known.2.1⟩

/-- A timer is scheduled under an identity that is new. -/
theorem scheduleTimer_safe {timer : TimerSchedule} (settled : except ≠ some (.timer (key, timer.timerId)))
    (lasting : Lasting discipline frame) (beside : Beside discipline i (· = .timer (key, timer.timerId)) K)
    (kept : Kept discipline d) (now : Amid i K except frame d) :
    (protocol discipline).Safe i (Ends fun _ => Amid i K except frame) (ProcessStatements.scheduleTimer i key timer) d := by
  have written : (protocol discipline).Safe i
      (Ends fun written d => K d ∧ (Good except (d.view WorkflowWrite.apply i) ∧ frame (d.view WorkflowWrite.apply i)) ∧
        (written = true → Holds schema i (.timer (key, timer.timerId)) (fun _ => True) d))
      (Session.writeWhere WorkflowWrite.apply i (.timer (key, timer.timerId)) fun tables =>
        if (tables.timers.get? (key, timer.timerId)).isNone then some (.saveTimer (key, timer.timerId) (timer.stored key)) else none :
          WorkflowTask Bool) d := by
    refine safe_write_beside (enduring_open except lasting) (fun _ => enduring_open except lasting) beside (fun _ open_ _ => open_)
      (fun s w open_ found => ?_) now
    obtain ⟨new, same⟩ := Option.ite_none_right_eq_some.mp found
    cases same
    have consistent := open_.1.timers _ settled
    have absent : (s.timer (key, timer.timerId)).stored = none := Option.isNone_iff_eq_none.mp new
    have unclaimed : (s.timer (key, timer.timerId)).claims = [] := by
      have counted := consistent.counted
      rw [absent] at counted
      exact List.eq_nil_of_length_eq_zero counted.symm
    have unsaved : (s.timer (key, timer.timerId)).effects = [] :=
      consistent.unfired fun stored present => by
        rw [absent] at present
        cases present
    have write : (WorkflowWrite.saveTimer (key, timer.timerId) (timer.stored key)).row = .timer (key, timer.timerId) := rfl
    obtain ⟨grows, after⟩ := timer_keeps except write lasting open_ (fun _ same other => absurd same other)
      (fun before present => by
        rw [absent] at present
        cases present)
      (fun _ => by
        rw [timer_saveTimer]
        dsimp only
        rw [unclaimed, unsaved]
        exact ⟨Or.inl rfl, rfl, fun _ same => by cases same; rfl, fun _ same _ => by cases same; exact ⟨rfl, rfl⟩⟩)
      (by
        rw [timer_saveTimer])
      (fun before present => by
        rw [absent] at present
        cases present)
    exact ⟨fun _ touches => touches.symm, grows, after, trivial⟩
  refine Protocol.Safe.bind written kept (fun inserted d _ known => ?_) fun _ _ _ _ => trivial
  split
  · exact safe_pure (Amid.stays lasting beside) ⟨known.1, known.2.1⟩
  · exact Protocol.Safe.done fun _ _ _ => trivial

/-- The timer is as it was read, and has not ended. -/
def Running (entry : TimerIdentity × StoredTimer) (part : TimerPart) : Prop :=
  part.stored = some entry.2 ∧ entry.2.terminal = false

/-- A timer that was locked while it ran gets its next token. -/
theorem claimTimer_safe {now claimTtl : Int} {entry : (TimerIdentity × StoredTimer) × Uuid} (lasting : Lasting discipline frame)
    (beside : Beside discipline i (· = .timer entry.1.1) K) (kept : Kept discipline d)
    (known : Amid i K none frame d ∧ Holds schema i (.timer entry.1.1) (Running entry.1) d) :
    (protocol discipline).Safe i
      (Ends fun claim d => Amid i K none frame d ∧ Claimed claim (d.view WorkflowWrite.apply i))
      (ProcessStatements.claimTimer i now claimTtl entry) d := by
  obtain ⟨⟨identity, stored⟩, claimId⟩ := entry
  unfold ProcessStatements.claimTimer
  split
  · exact Protocol.Safe.done fun _ _ _ => trivial
  rename_i claimedUntil _
  have lastingClaim := lasting.and (lasting_claimed ⟨(stored.claim claimId claimedUntil).value, claimId, claimedUntil⟩)
  have written : (protocol discipline).Safe i
      (Ends fun _ d => K d ∧ (Good none (d.view WorkflowWrite.apply i) ∧ frame (d.view WorkflowWrite.apply i) ∧
          Claimed ⟨(stored.claim claimId claimedUntil).value, claimId, claimedUntil⟩ (d.view WorkflowWrite.apply i)) ∧
        Holds schema i (.timer identity) (fun _ => True) d)
      (Session.change i (.claimTimer identity (stored.claim claimId claimedUntil) (claimId, claimedUntil)) : WorkflowTask Unit) d := by
    refine safe_change_held (enduring_open none lasting) (enduring_open none lastingClaim) beside (fun _ touches => touches.symm)
      (fun s open_ held => ?_) ⟨known.1.1, known.1.2, known.2⟩
    have isStored : (s.timer identity).stored = some stored := held.1
    have consistent := open_.1.timers identity (by simp)
    have before : ∀ other, (s.timer identity).stored = some other → other = stored :=
      fun other same => Option.some.inj (same.symm.trans isStored)
    have running : ∀ other, (s.timer identity).stored = some other → other.terminal = false := fun other same => before other same ▸ held.2
    have token : stored.value.fencingToken = (s.timer identity).claims.length := by
      rw [← consistent.counted, isStored]
      rfl
    have named : stored.value.identity = identity := consistent.named stored isStored
    have write : (WorkflowWrite.claimTimer identity (stored.claim claimId claimedUntil) (claimId, claimedUntil)).row = .timer identity := rfl
    obtain ⟨grows, good, framed⟩ := timer_keeps none write lasting open_ (fun _ same other => absurd same other) running
      (fun _ => by
        rw [timer_claimTimer]
        refine ⟨Or.inl (consistent.unfired running), ?_, fun other same => ?_, fun other same unended => ?_⟩
        · rw [List.length_append, ← token]
          rfl
        · cases same
          exact named
        · cases same
          rw [List.getLast?_concat]
          exact ⟨rfl, rfl⟩)
      (by
        rw [timer_claimTimer]
        exact List.prefix_append _ _)
      (fun other same => by
        rw [before other same, timer_claimTimer]
        exact ⟨_, rfl, rfl⟩)
    refine ⟨grows, ⟨good, framed, Nat.succ_pos _, ?_, ?_⟩, trivial⟩
    · change ((WorkflowWrite.apply _ s).timer stored.value.identity).claims[stored.value.fencingToken]? = _
      rw [named, timer_claimTimer, token, List.getElem?_append_right (Nat.le_refl _), Nat.sub_self]
      rfl
    · change ∃ other, ((WorkflowWrite.apply _ s).timer stored.value.identity).stored = some other ∧ _
      rw [named, timer_claimTimer]
      exact ⟨_, rfl, rfl⟩
  refine Protocol.Safe.bind written kept (fun _ d _ after => ?_) fun _ _ _ _ => trivial
  exact safe_pure ((Amid.stays lasting beside).and (lasting_claimed _).enduring.stays)
    ⟨⟨after.1, after.2.1.1, after.2.1.2.1⟩, after.2.1.2.2⟩

/-- The timers that were selected stand as they were read, each once. -/
theorem claimable_rows (now : Int) (tables : WorkflowTables) :
    let entries := (tables.timers.items.filter (ProcessManagerStore.claimable now)).insertionSort (ProcessManagerStore.timerOrder · ·)
    (entries.map fun entry => WorkflowRow.timer entry.1).Nodup ∧ ∀ entry ∈ entries, Running entry (tables.timer entry.1) := by
  intro entries
  have same : entries.Perm (tables.timers.items.filter (ProcessManagerStore.claimable now)) := List.perm_insertionSort _ _
  refine ⟨?_, fun entry member => ?_⟩
  · have chosen : ((tables.timers.items.filter (ProcessManagerStore.claimable now)).map Prod.fst).Nodup :=
      tables.timers.nodup.sublist (List.filter_sublist.map Prod.fst)
    have rows := chosen.map fun _ _ equal => WorkflowRow.timer.inj equal
    rw [List.map_map] at rows
    exact (same.map _).nodup_iff.mpr rows
  · obtain ⟨inside, able⟩ := List.mem_filter.mp (same.mem_iff.mp member)
    refine ⟨Dict.mem_items.mp inside, ?_⟩
    unfold ProcessManagerStore.claimable at able
    simp only [Bool.and_eq_true, Bool.not_eq_true'] at able
    exact able.1.1

theorem claimTimers_establishes {now limit claimTtl : Int} {claimIds : Nat → Uuid} :
    Establishes discipline i (fun claims tables => ∀ claim ∈ claims, Claimed claim tables)
      (ProcessStatements.claimTimers i now limit claimTtl claimIds) := by
  intro frame lasting d kept known
  have trivially : ∀ {rows : WorkflowRow → Prop}, Beside discipline i rows fun _ => True :=
    ⟨Stays.const True, fun _ _ _ => trivial, fun _ _ _ _ => trivial⟩
  unfold ProcessStatements.claimTimers
  split
  · exact Protocol.Safe.done fun _ _ _ => trivial
  have selected : (protocol discipline).Safe i
      (Ends fun found d => True ∧ (Good none (d.view WorkflowWrite.apply i) ∧ frame (d.view WorkflowWrite.apply i)) ∧
        (found.map fun entry => WorkflowRow.timer entry.1).Nodup ∧
        HoldsAll schema i (fun (entry : TimerIdentity × StoredTimer) (part : schema.Part (.timer entry.1)) => Running entry part) found d)
      (Session.selectSkipLocked WorkflowWrite.apply i
        (fun tables => (tables.timers.items.filter (ProcessManagerStore.claimable now)).insertionSort (ProcessManagerStore.timerOrder · ·))
        (fun entry => WorkflowRow.timer entry.1) limit.toNat : WorkflowTask _) d :=
    safe_selectSkipLocked (enduring_open none lasting) trivially (fun s _ => claimable_rows now s) ⟨trivial, known⟩
  refine Protocol.Safe.bind selected kept (fun rows d kept found => ?_) fun _ _ _ _ => trivial
  obtain ⟨-, open_, distinct, held⟩ := found
  have each : (protocol discipline).Safe i
      (Ends fun claims d => True ∧ (Good none (d.view WorkflowWrite.apply i) ∧ frame (d.view WorkflowWrite.apply i)) ∧
        ∀ claim ∈ claims, Claimed claim (d.view WorkflowWrite.apply i))
      (Session.each (ProcessStatements.claimTimer i now claimTtl) (rows.mapIdx fun count entry => (entry, claimIds count))) d := by
    have named : (rows.mapIdx fun count entry => (entry, claimIds count)).map (fun entry => WorkflowRow.timer entry.1.1) =
        rows.map fun entry => WorkflowRow.timer entry.1 :=
      List.ext_getElem (by simp) fun _ _ _ => by simp
    refine safe_each_held (fun entry (part : schema.Part (.timer entry.1.1)) => Running entry.1 part) Enduring.good lasting_claimed lasting
      (named ▸ distinct) trivially kept (fun entry _ _ _ d lasting beside kept known => ?_) ⟨trivial, open_, fun entry member => ?_⟩
    · exact safe_weaken (claimTimer_safe lasting beside kept ⟨⟨known.1, known.2.1⟩, known.2.2⟩) fun _ _ known => ⟨known.1.1, known.1.2, known.2⟩
    · obtain ⟨count, inside, rfl⟩ := List.mem_mapIdx.mp member
      exact held rows[count] (List.getElem_mem inside)
  exact safe_weaken each fun _ _ known => ⟨⟨known.2.1.1, known.2.1.2⟩, known.2.2⟩

section Ending
variable {claim : ProcessTimerClaim} {base : TimerPart} {stored : StoredTimer} {at_ selectClock updateClock : Int}

/-- The effect of a timer is saved before the timer ends. -/
theorem saveTimerEffect_safe (lasting : Lasting discipline frame) (beside : Beside discipline i (· = .timer claim.timer.identity) K)
    (isStored : base.stored = some stored) (running : stored.terminal = false) (consistent : base.Consistent claim.timer.identity)
    (now : Amid i K none frame d ∧ Holds schema i (.timer claim.timer.identity) (fun part => part = base) d) :
    (protocol discipline).Safe i
      (Ends fun _ d => K d ∧ (Good (some (.timer claim.timer.identity)) (d.view WorkflowWrite.apply i) ∧
          frame (d.view WorkflowWrite.apply i)) ∧
        Holds schema i (.timer claim.timer.identity) (fun part => part = (⟨base.stored, [claim.timer.effect], base.claims⟩ : TimerPart)) d)
      (Session.change i (.saveTimerEffect claim.timer.identity claim.timer.effect) : WorkflowTask Unit) d := by
  refine safe_change_held (enduring_open none lasting) (enduring_open _ lasting) beside (fun _ touches => touches.symm)
    (fun s open_ held => ?_) ⟨now.1.1, now.1.2, now.2⟩
  have same : s.timer claim.timer.identity = base := held
  have write : (WorkflowWrite.saveTimerEffect claim.timer.identity claim.timer.effect).row = .timer claim.timer.identity := rfl
  obtain ⟨grows, after⟩ := timer_keeps (some (.timer claim.timer.identity)) write lasting open_ (fun _ impossible => by cases impossible)
    (fun before found => by
      rw [same, isStored] at found
      cases found
      exact running)
    (fun impossible => absurd rfl impossible)
    (by
      rw [timer_saveTimerEffect])
    (fun before found => by
      rw [timer_saveTimerEffect]
      exact ⟨before, found, rfl⟩)
  refine ⟨grows, after, ?_⟩
  change (WorkflowWrite.apply _ s).timer claim.timer.identity = _
  rw [timer_saveTimerEffect, same]
  dsimp only
  rw [consistent.unfired fun other found => Option.some.inj (isStored.symm.trans found) ▸ running]
  rfl

/-- The row that the update changes is the one that was locked. Where its filter still finds it, the
timer ends. -/
theorem endTimer_safe (lasting : Lasting discipline frame) (beside : Beside discipline i (· = .timer claim.timer.identity) K)
    (isStored : base.stored = some stored) (running : stored.terminal = false) (consistent : base.Consistent claim.timer.identity)
    (last : base.claims.getLast? = some (claim.claimId, claim.claimedUntil)) (numbered : base.claims.length = claim.timer.fencingToken)
    (now : K d ∧ (Good (some (.timer claim.timer.identity)) (d.view WorkflowWrite.apply i) ∧ frame (d.view WorkflowWrite.apply i)) ∧
      Holds schema i (.timer claim.timer.identity) (fun part => part = (⟨base.stored, [claim.timer.effect], base.claims⟩ : TimerPart)) d) :
    (protocol discipline).Safe i
      (Ends fun changed d => K d ∧ Good (if changed then none else some (.timer claim.timer.identity)) (d.view WorkflowWrite.apply i) ∧
        frame (d.view WorkflowWrite.apply i) ∧ (changed = true → Fired claim (d.view WorkflowWrite.apply i)))
      (Session.writeWhere WorkflowWrite.apply i (.timer claim.timer.identity) fun tables =>
        ((tables.timers.get? claim.timer.identity).filter (ProcessStatements.stillClaims claim at_ updateClock)).map fun stored =>
          .saveTimer claim.timer.identity stored.end : WorkflowTask Bool) d := by
  have lastingFired : ∀ changed : Bool, Lasting discipline fun tables => frame tables ∧ (changed = true → Fired claim tables) :=
    fun changed => lasting.and (Lasting.forall fun _ => lasting_fired claim)
  have written : (protocol discipline).Safe i
      (Ends fun changed d => K d ∧ (Good (if changed then none else some (.timer claim.timer.identity)) (d.view WorkflowWrite.apply i) ∧
          frame (d.view WorkflowWrite.apply i) ∧ (changed = true → Fired claim (d.view WorkflowWrite.apply i))) ∧
        Holds schema i (.timer claim.timer.identity) (fun _ => True) d)
      (Session.writeWhere WorkflowWrite.apply i (.timer claim.timer.identity) fun tables =>
        ((tables.timers.get? claim.timer.identity).filter (ProcessStatements.stillClaims claim at_ updateClock)).map fun stored =>
          .saveTimer claim.timer.identity stored.end : WorkflowTask Bool) d := by
    refine safe_write_held (enduring_open _ lasting) (fun changed => enduring_open _ (lastingFired changed)) beside
      (fun s open_ _ _ => ⟨⟨open_.1, open_.2, fun impossible => by cases impossible⟩, trivial⟩) (fun s w open_ held found => ?_) now
    have same : s.timer claim.timer.identity = ⟨base.stored, [claim.timer.effect], base.claims⟩ := held
    obtain ⟨other, chosen, rfl⟩ := Option.map_eq_some_iff.mp found
    have isOther : (s.timer claim.timer.identity).stored = some other := (Option.filter_eq_some_iff.mp chosen).1
    rw [same] at isOther
    cases isStored.symm.trans isOther
    have counted : stored.value.fencingToken = base.claims.length := by
      rw [← consistent.counted, isStored]
      rfl
    have write : (WorkflowWrite.saveTimer claim.timer.identity stored.end).row = .timer claim.timer.identity := rfl
    obtain ⟨grows, good, framed⟩ := timer_keeps none write lasting open_ (fun _ same _ => (Option.some.inj same).symm)
      (fun before found => by
        rw [same, isStored] at found
        cases found
        exact running)
      (fun _ => by
        rw [timer_saveTimer, same]
        refine ⟨Or.inr ⟨_, _, rfl, rfl, rfl⟩, counted, fun _ found => ?_, fun _ found unended => ?_⟩
        · cases found
          exact consistent.named stored isStored
        · cases found
          cases unended)
      (by
        rw [timer_saveTimer])
      (fun before found => by
        rw [same, isStored] at found
        cases found
        rw [timer_saveTimer]
        exact ⟨_, rfl, rfl⟩)
    have ending : (WorkflowWrite.apply (.saveTimer claim.timer.identity stored.end) s).timer claim.timer.identity =
        ⟨some stored.end, [claim.timer.effect], base.claims⟩ := by
      rw [timer_saveTimer, same]
    have fired : Fired claim (WorkflowWrite.apply (.saveTimer claim.timer.identity stored.end) s) := by
      refine ⟨⟨stored.end, ?_, rfl⟩, ?_, ?_, ?_⟩
      · rw [ending]
      · rw [ending]
      · rw [ending]
        exact last
      · rw [ending]
        exact numbered
    exact ⟨fun _ touches => touches.symm, grows, ⟨good, framed, fun _ => fired⟩, trivial⟩
  exact safe_weaken written fun _ _ known => ⟨known.1, known.2.1⟩

end Ending

theorem completeTimer_establishes {claim : ProcessTimerClaim} {at_ selectClock updateClock : Int} :
    Establishes discipline i (fun completed tables => completed = true → Fired claim tables)
      (ProcessStatements.completeTimer i claim at_ selectClock updateClock) := by
  intro frame lasting d kept known
  have enduring := enduring_open none lasting
  have lastingFired : ∀ completed : Bool, Lasting discipline fun tables => completed = true → Fired claim tables :=
    fun completed => Lasting.forall fun _ => lasting_fired claim
  have answer : ∀ {completed : Bool} {e : Database WorkflowTables WorkflowWrite WorkflowRow}, Knows discipline i frame e →
      (completed = true → Fired claim (e.view WorkflowWrite.apply i)) →
      (protocol discipline).Safe i
        (Ends fun completed e => Knows discipline i frame e ∧ (completed = true → Fired claim (e.view WorkflowWrite.apply i)))
        (pure completed : WorkflowTask Bool) e :=
    fun knows fired => safe_pure ((Knows.stays lasting).and (lastingFired _).enduring.stays) ⟨knows, fired⟩
  refine safe_nested kept enduring known fun mark d kept marked known => ?_
  have untouched : Beside discipline i (fun _ => False) (Marked schema i mark fun tables => Good none tables ∧ frame tables) :=
    enduring.beside_marked mark
  have selected : (protocol discipline).Safe i
      (Ends fun found d => Marked schema i mark (fun tables => Good none tables ∧ frame tables) d ∧
        (Good none (d.view WorkflowWrite.apply i) ∧ frame (d.view WorkflowWrite.apply i)) ∧
        ∀ stored, found = some stored → Holds schema i (.timer claim.timer.identity)
          (fun part => TimerPart.stored part = some stored ∧ ProcessStatements.claims claim at_ selectClock stored = true) d)
      (Session.selectForUpdate WorkflowWrite.apply i (.timer claim.timer.identity) fun tables =>
        (tables.timers.get? claim.timer.identity).filter (ProcessStatements.claims claim at_ selectClock) : WorkflowTask _) d :=
    safe_select_beside enduring untouched
      (fun s stored _ found => Option.filter_eq_some_iff.mp found) ⟨marked, known⟩
  refine Protocol.Safe.bind selected kept (fun found d kept known => ?_) fun _ _ _ _ => trivial
  obtain ⟨marked, open_, holds⟩ := known
  split
  · exact answer open_ fun impossible => by cases impossible
  rename_i stored
  have held := holds stored rfl
  have isStored : ((d.view WorkflowWrite.apply i).timer claim.timer.identity).stored = some stored := held.2.1
  have consistent := open_.1.timers claim.timer.identity (by simp)
  have checked := held.2.2
  unfold ProcessStatements.claims at checked
  simp only [Bool.and_eq_true, Bool.not_eq_true', decide_eq_true_eq] at checked
  obtain ⟨⟨⟨⟨claimId, token⟩, running⟩, claimedUntil⟩, -⟩ := checked
  have counted : stored.value.fencingToken = ((d.view WorkflowWrite.apply i).timer claim.timer.identity).claims.length := by
    rw [← consistent.counted, isStored]
    rfl
  have last : ((d.view WorkflowWrite.apply i).timer claim.timer.identity).claims.getLast? = some (claim.claimId, claim.claimedUntil) := by
    obtain ⟨sameId, sameUntil⟩ := consistent.claimed stored isStored running
    rw [claimId] at sameId
    rw [claimedUntil] at sameUntil
    obtain ⟨found, isLast, first⟩ := Option.map_eq_some_iff.mp sameId.symm
    rw [isLast] at sameUntil ⊢
    rw [← first, Option.some.inj sameUntil]
  have base : Amid i (Marked schema i mark fun tables => Good none tables ∧ frame tables) none frame d ∧
      Holds schema i (.timer claim.timer.identity) (fun part => part = (d.view WorkflowWrite.apply i).timer claim.timer.identity) d :=
    ⟨⟨marked, open_⟩, held.1, rfl⟩
  refine Protocol.Safe.bind (saveTimerEffect_safe lasting (enduring.beside_marked mark) isStored running consistent base) kept
    (fun _ d kept known => ?_) fun _ _ _ _ => trivial
  refine Protocol.Safe.bind (endTimer_safe lasting (enduring.beside_marked mark) isStored running consistent last (counted.symm.trans token) known)
    kept (fun changed d kept known => ?_) fun _ _ _ _ => trivial
  cases changed with
  | true => exact answer ⟨known.2.1, known.2.2.1⟩ known.2.2.2
  | false =>
    refine Protocol.Safe.bind (safe_rollback mark (enduring.stays_marked mark) (Knows.stays lasting) (fun _ _ marked => marked.keep) known.1)
      kept (fun _ e _ knows => ?_) fun _ _ _ _ => trivial
    exact answer knows fun impossible => by cases impossible

end Timers

end Pytitect.WorkflowTables
