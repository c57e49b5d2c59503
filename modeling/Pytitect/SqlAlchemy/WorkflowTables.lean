import Mathlib.Data.List.Infix
import Pytitect.Inbox.Store
import Pytitect.Lib.RowRules
import Pytitect.Processes.Store

namespace Pytitect

/-- A row of processes, less its identity. Version 0 stands for a process without a decision. -/
structure ProcessRow where
  version : Nat
  status : ProcessStatus
  state : JsonValue
  updatedAt : Int
  valid : validateJson state .default = .ok ()

/-- The rows that transactions lock. -/
inductive WorkflowRow
  | process (key : ProcessKey)
  | timer (identity : TimerIdentity)
  | message (identity : InboxIdentity)
  deriving DecidableEq

/-- A decision that was applied, and the message that it was for. -/
structure AppliedDecision where
  decision : ProcessDecision
  message : Option InboxIdentity

/-- The tables of processes, timers and messages behind one database, and what `save_effect` has been
given for a process or a timer. `decisions`, `timerClaims` and `handled` are no tables. They remember
which decisions were applied, who has claimed a timer, and what a message has led to. -/
structure WorkflowTables where
  processes : Dict ProcessKey ProcessRow
  timers : Dict TimerIdentity StoredTimer
  inbox : Dict InboxIdentity InboxEntry
  effects : Dict ProcessKey (List ProcessEffect)
  timerEffects : Dict TimerIdentity (List ProcessEffect)
  timerClaims : Dict TimerIdentity (List (Uuid × Int))
  decisions : Dict ProcessKey (List AppliedDecision)
  handled : Dict InboxIdentity (ProcessKey × Nat)

/-- What the statements write. -/
inductive WorkflowWrite
  | createProcess (key : ProcessKey) (row : ProcessRow)
  | saveEffect (key : ProcessKey) (effect : ProcessEffect)
  | advance (key : ProcessKey) (row : ProcessRow) (applied : AppliedDecision)
  | saveTimer (identity : TimerIdentity) (stored : StoredTimer)
  | claimTimer (identity : TimerIdentity) (stored : StoredTimer) (claim : Uuid × Int)
  | saveTimerEffect (identity : TimerIdentity) (effect : ProcessEffect)
  | reserveMessage (identity : InboxIdentity) (entry : InboxEntry)
  | completeMessage (identity : InboxIdentity) (entry : InboxEntry) (handled : ProcessKey × Nat)

namespace WorkflowWrite

/-- The row that has to be locked for the write. -/
def row : WorkflowWrite → WorkflowRow
  | .createProcess key _ => .process key
  | .saveEffect key _ => .process key
  | .advance key _ _ => .process key
  | .saveTimer identity _ => .timer identity
  | .claimTimer identity _ _ => .timer identity
  | .saveTimerEffect identity _ => .timer identity
  | .reserveMessage identity _ => .message identity
  | .completeMessage identity _ _ => .message identity

def apply : WorkflowWrite → WorkflowTables → WorkflowTables
  | .createProcess key row, tables => { tables with processes := tables.processes.set key row }
  | .saveEffect key effect, tables => { tables with effects := tables.effects.set key ((tables.effects.get? key).getD [] ++ [effect]) }
  | .advance key row applied, tables =>
    { tables with
      processes := tables.processes.set key row
      decisions := tables.decisions.set key ((tables.decisions.get? key).getD [] ++ [applied]) }
  | .saveTimer identity stored, tables => { tables with timers := tables.timers.set identity stored }
  | .claimTimer identity stored claim, tables =>
    { tables with
      timers := tables.timers.set identity stored
      timerClaims := tables.timerClaims.set identity ((tables.timerClaims.get? identity).getD [] ++ [claim]) }
  | .saveTimerEffect identity effect, tables =>
    { tables with timerEffects := tables.timerEffects.set identity ((tables.timerEffects.get? identity).getD [] ++ [effect]) }
  | .reserveMessage identity entry, tables => { tables with inbox := tables.inbox.set identity entry }
  | .completeMessage identity entry handled, tables =>
    { tables with inbox := tables.inbox.set identity entry, handled := tables.handled.set identity handled }

end WorkflowWrite

/-- What belongs to a process. -/
@[ext] structure ProcessPart where
  row : Option ProcessRow
  effects : List ProcessEffect
  decisions : List AppliedDecision

@[ext] structure TimerPart where
  stored : Option StoredTimer
  effects : List ProcessEffect
  claims : List (Uuid × Int)

@[ext] structure MessagePart where
  entry : Option InboxEntry
  handled : Option (ProcessKey × Nat)

namespace WorkflowTables

def process (tables : WorkflowTables) (key : ProcessKey) : ProcessPart :=
  ⟨tables.processes.get? key, (tables.effects.get? key).getD [], (tables.decisions.get? key).getD []⟩

def timer (tables : WorkflowTables) (identity : TimerIdentity) : TimerPart :=
  ⟨tables.timers.get? identity, (tables.timerEffects.get? identity).getD [], (tables.timerClaims.get? identity).getD []⟩

def message (tables : WorkflowTables) (identity : InboxIdentity) : MessagePart :=
  ⟨tables.inbox.get? identity, tables.handled.get? identity⟩

def Part : WorkflowRow → Type
  | .process _ => ProcessPart
  | .timer _ => TimerPart
  | .message _ => MessagePart

/-- What a row guards. -/
def part (tables : WorkflowTables) : (row : WorkflowRow) → Part row
  | .process key => tables.process key
  | .timer identity => tables.timer identity
  | .message identity => tables.message identity

variable {tables others : WorkflowTables} {key : ProcessKey} {timerId : TimerIdentity} {messageId : InboxIdentity}

@[simp] theorem process_createProcess (row : ProcessRow) :
    (WorkflowWrite.apply (.createProcess key row) tables).process key = { tables.process key with row := some row } := by
  simp [WorkflowWrite.apply, process]

@[simp] theorem process_saveEffect (effect : ProcessEffect) :
    (WorkflowWrite.apply (.saveEffect key effect) tables).process key =
      { tables.process key with effects := (tables.process key).effects ++ [effect] } := by
  simp [WorkflowWrite.apply, process]

@[simp] theorem process_advance (row : ProcessRow) (applied : AppliedDecision) :
    (WorkflowWrite.apply (.advance key row applied) tables).process key =
      { tables.process key with row := some row, decisions := (tables.process key).decisions ++ [applied] } := by
  simp [WorkflowWrite.apply, process]

@[simp] theorem timer_saveTimer (stored : StoredTimer) :
    (WorkflowWrite.apply (.saveTimer timerId stored) tables).timer timerId =
      { tables.timer timerId with stored := some stored } := by
  simp [WorkflowWrite.apply, timer]

@[simp] theorem timer_claimTimer (stored : StoredTimer) (claim : Uuid × Int) :
    (WorkflowWrite.apply (.claimTimer timerId stored claim) tables).timer timerId =
      { tables.timer timerId with stored := some stored, claims := (tables.timer timerId).claims ++ [claim] } := by
  simp [WorkflowWrite.apply, timer]

@[simp] theorem timer_saveTimerEffect (effect : ProcessEffect) :
    (WorkflowWrite.apply (.saveTimerEffect timerId effect) tables).timer timerId =
      { tables.timer timerId with effects := (tables.timer timerId).effects ++ [effect] } := by
  simp [WorkflowWrite.apply, timer]

@[simp] theorem message_reserveMessage (entry : InboxEntry) :
    (WorkflowWrite.apply (.reserveMessage messageId entry) tables).message messageId =
      { tables.message messageId with entry := some entry } := by
  simp [WorkflowWrite.apply, message]

@[simp] theorem message_completeMessage (entry : InboxEntry) (handled : ProcessKey × Nat) :
    (WorkflowWrite.apply (.completeMessage messageId entry handled) tables).message messageId =
      { tables.message messageId with entry := some entry, handled := some handled } := by
  simp [WorkflowWrite.apply, message]

theorem part_untouched {write : WorkflowWrite} {row : WorkflowRow} (other : write.row ≠ row) (tables : WorkflowTables) :
    (write.apply tables).part row = tables.part row := by
  cases row with
  | process key =>
    have away : ∀ {name : ProcessKey}, WorkflowRow.process name ≠ .process key → key ≠ name :=
      fun distinct same => distinct (by rw [same])
    change (write.apply tables).process key = tables.process key
    cases write with
    | createProcess name row => simp [WorkflowWrite.apply, process, Dict.get?_set, away other]
    | saveEffect name effect => simp [WorkflowWrite.apply, process, Dict.get?_set, away other]
    | advance name row applied => simp [WorkflowWrite.apply, process, Dict.get?_set, away other]
    | saveTimer _ _ => rfl
    | claimTimer _ _ _ => rfl
    | saveTimerEffect _ _ => rfl
    | reserveMessage _ _ => rfl
    | completeMessage _ _ _ => rfl
  | timer identity =>
    have away : ∀ {name : TimerIdentity}, WorkflowRow.timer name ≠ .timer identity → identity ≠ name :=
      fun distinct same => distinct (by rw [same])
    change (write.apply tables).timer identity = tables.timer identity
    cases write with
    | saveTimer name stored => simp [WorkflowWrite.apply, timer, Dict.get?_set, away other]
    | claimTimer name stored claim => simp [WorkflowWrite.apply, timer, Dict.get?_set, away other]
    | saveTimerEffect name effect => simp [WorkflowWrite.apply, timer, Dict.get?_set, away other]
    | createProcess _ _ => rfl
    | saveEffect _ _ => rfl
    | advance _ _ _ => rfl
    | reserveMessage _ _ => rfl
    | completeMessage _ _ _ => rfl
  | message identity =>
    have away : ∀ {name : InboxIdentity}, WorkflowRow.message name ≠ .message identity → identity ≠ name :=
      fun distinct same => distinct (by rw [same])
    change (write.apply tables).message identity = tables.message identity
    cases write with
    | reserveMessage name entry => simp [WorkflowWrite.apply, message, Dict.get?_set, away other]
    | completeMessage name entry handled => simp [WorkflowWrite.apply, message, Dict.get?_set, away other]
    | createProcess _ _ => rfl
    | saveEffect _ _ => rfl
    | advance _ _ _ => rfl
    | saveTimer _ _ => rfl
    | claimTimer _ _ _ => rfl
    | saveTimerEffect _ _ => rfl

/-- What a write makes of the part it is for. -/
theorem part_own {write : WorkflowWrite} (same : tables.part write.row = others.part write.row) :
    (write.apply tables).part write.row = (write.apply others).part write.row := by
  cases write with
  | createProcess key row =>
    change tables.process key = others.process key at same
    change WorkflowTables.process _ key = WorkflowTables.process _ key
    rw [process_createProcess, process_createProcess, same]
  | saveEffect key effect =>
    change tables.process key = others.process key at same
    change WorkflowTables.process _ key = WorkflowTables.process _ key
    rw [process_saveEffect, process_saveEffect, same]
  | advance key row applied =>
    change tables.process key = others.process key at same
    change WorkflowTables.process _ key = WorkflowTables.process _ key
    rw [process_advance, process_advance, same]
  | saveTimer identity stored =>
    change tables.timer identity = others.timer identity at same
    change WorkflowTables.timer _ identity = WorkflowTables.timer _ identity
    rw [timer_saveTimer, timer_saveTimer, same]
  | claimTimer identity stored claim =>
    change tables.timer identity = others.timer identity at same
    change WorkflowTables.timer _ identity = WorkflowTables.timer _ identity
    rw [timer_claimTimer, timer_claimTimer, same]
  | saveTimerEffect identity effect =>
    change tables.timer identity = others.timer identity at same
    change WorkflowTables.timer _ identity = WorkflowTables.timer _ identity
    rw [timer_saveTimerEffect, timer_saveTimerEffect, same]
  | reserveMessage identity entry =>
    change tables.message identity = others.message identity at same
    change WorkflowTables.message _ identity = WorkflowTables.message _ identity
    rw [message_reserveMessage, message_reserveMessage, same]
  | completeMessage identity entry handled =>
    change tables.message identity = others.message identity at same
    change WorkflowTables.message _ identity = WorkflowTables.message _ identity
    rw [message_completeMessage, message_completeMessage, same]

def schema : Schema WorkflowTables WorkflowWrite WorkflowRow where
  Part := Part
  part := fun row tables => tables.part row
  write := WorkflowWrite.apply
  touches := fun write row => write.row = row
  untouched := fun other tables => part_untouched other tables
  confined := by
    intro write row tables others same
    by_cases mine : write.row = row
    · subst mine
      exact part_own same
    · rw [part_untouched mine, part_untouched mine, same]

end WorkflowTables

namespace ProcessPart
variable {part : ProcessPart}

/-- The row counts the decisions and shows the last one, and the effects saved are theirs. -/
structure Consistent (part : ProcessPart) : Prop where
  counted : (part.row.map (·.version)).getD 0 = part.decisions.length
  effects : part.effects = part.decisions.flatMap (·.decision.effects)
  last : ∀ row applied, part.row = some row → part.decisions.getLast? = some applied →
    row.state = applied.decision.state ∧ row.status = applied.decision.status

structure Grows (before after : ProcessPart) : Prop where
  decisions : before.decisions <+: after.decisions
  effects : before.effects <+: after.effects

theorem Grows.refl : Grows part part := ⟨List.prefix_refl _, List.prefix_refl _⟩

theorem Grows.trans {first second third : ProcessPart} (one : Grows first second) (two : Grows second third) : Grows first third :=
  ⟨one.decisions.trans two.decisions, one.effects.trans two.effects⟩

theorem Consistent.create (consistent : part.Consistent) (absent : part.row = none) {row : ProcessRow} (new : row.version = 0) :
    Consistent { part with row := some row } where
  counted := by
    have counted := consistent.counted
    rw [absent] at counted
    exact new.trans counted
  effects := consistent.effects
  last := by
    intro row applied _ isLast
    have none : part.decisions.length = 0 := by
      rw [← consistent.counted, absent]
      rfl
    rw [List.eq_nil_of_length_eq_zero none] at isLast
    cases isLast

/-- The row moves on to the decision whose effects have been saved. -/
theorem Consistent.advance (consistent : part.Consistent) {row : ProcessRow} {applied : AppliedDecision}
    (version : row.version = part.decisions.length + 1)
    (shows : row.state = applied.decision.state ∧ row.status = applied.decision.status) :
    Consistent ⟨some row, part.effects ++ applied.decision.effects, part.decisions ++ [applied]⟩ where
  counted := by
    rw [List.length_append, List.length_singleton]
    exact version
  effects := by
    dsimp only
    rw [consistent.effects, List.flatMap_append, List.flatMap_singleton]
  last := by
    intro other last same isLast
    dsimp only at isLast
    cases same
    rw [List.getLast?_concat] at isLast
    cases isLast
    exact shows

end ProcessPart

namespace TimerPart
variable {part : TimerPart}

/-- A timer saves its effect at most once, and has ended then. Its token counts its claims, the last
of which is in force. -/
structure Consistent (identity : TimerIdentity) (part : TimerPart) : Prop where
  fired : part.effects = [] ∨ ∃ stored effect, part.stored = some stored ∧ stored.terminal = true ∧ part.effects = [effect]
  counted : (part.stored.map (·.value.fencingToken)).getD 0 = part.claims.length
  named : ∀ stored, part.stored = some stored → stored.value.identity = identity
  claimed : ∀ stored, part.stored = some stored → stored.terminal = false →
    stored.claimId = part.claims.getLast?.map Prod.fst ∧ stored.claimedUntil = part.claims.getLast?.map Prod.snd

/-- A timer keeps its schedule and its claims. One that has ended does not change. -/
structure Grows (before after : TimerPart) : Prop where
  stored : ∀ stored, before.stored = some stored →
    ∃ later, after.stored = some later ∧ later.value = { stored.value with fencingToken := later.value.fencingToken }
  claims : before.claims <+: after.claims
  ended : ∀ stored, before.stored = some stored → stored.terminal = true → after = before

theorem Grows.refl : Grows part part := ⟨fun stored found => ⟨stored, found, rfl⟩, List.prefix_refl _, fun _ _ _ => rfl⟩

theorem Grows.trans {first second third : TimerPart} (one : Grows first second) (two : Grows second third) : Grows first third where
  stored := by
    intro stored found
    obtain ⟨middle, foundMiddle, sameMiddle⟩ := one.stored stored found
    obtain ⟨last, foundLast, sameLast⟩ := two.stored middle foundMiddle
    refine ⟨last, foundLast, ?_⟩
    rw [sameMiddle] at sameLast
    exact sameLast
  claims := one.claims.trans two.claims
  ended := by
    intro stored found ended
    have same := one.ended stored found ended
    have later := two.ended stored (same ▸ found) ended
    exact later.trans same

/-- A timer that has not ended has saved no effect. -/
theorem Consistent.unfired {identity : TimerIdentity} (consistent : part.Consistent identity)
    (running : ∀ stored, part.stored = some stored → stored.terminal = false) : part.effects = [] := by
  rcases consistent.fired with none | ⟨stored, _, found, ended, -⟩
  · exact none
  · rw [running stored found] at ended
    cases ended

end TimerPart

namespace MessagePart
variable {part : MessagePart}

/-- A message that has led to a decision is completed. -/
def Consistent (part : MessagePart) : Prop :=
  ∀ place, part.handled = some place → ∃ entry at_, part.entry = some entry ∧ entry.completedAt = some at_

/-- A completed message does not change. -/
structure Grows (before after : MessagePart) : Prop where
  handled : ∀ place, before.handled = some place → after.handled = some place
  completed : ∀ entry at_, before.entry = some entry → entry.completedAt = some at_ → after = before

theorem Grows.refl : Grows part part := ⟨fun _ found => found, fun _ _ _ _ => rfl⟩

theorem Grows.trans {first second third : MessagePart} (one : Grows first second) (two : Grows second third) : Grows first third where
  handled := fun place found => two.handled place (one.handled place found)
  completed := by
    intro entry at_ found completed
    have same := one.completed entry at_ found completed
    have later := two.completed entry at_ (same ▸ found) completed
    exact later.trans same

end MessagePart

/-- What a session may be in the middle of: effects of a decision are saved but not the decision, the
effect of a timer but not that it has ended, or a decision but not that its message is completed. -/
inductive Unsettled
  | process (key : ProcessKey)
  | timer (identity : TimerIdentity)
  | message (identity : InboxIdentity) (key : ProcessKey) (version : Nat)

namespace WorkflowTables
variable {except later : Option Unsettled} {s t u tables : WorkflowTables} {key : ProcessKey} {write : WorkflowWrite}

def Grows : (row : WorkflowRow) → Part row → Part row → Prop
  | .process _ => ProcessPart.Grows
  | .timer _ => TimerPart.Grows
  | .message _ => MessagePart.Grows

theorem Grows.refl : ∀ {row : WorkflowRow} {part : Part row}, Grows row part part
  | .process _, _ => ProcessPart.Grows.refl
  | .timer _, _ => TimerPart.Grows.refl
  | .message _, _ => MessagePart.Grows.refl

theorem Grows.trans : ∀ {row : WorkflowRow} {first second third : Part row},
    Grows row first second → Grows row second third → Grows row first third
  | .process _, _, _, _, one, two => ProcessPart.Grows.trans one two
  | .timer _, _, _, _, one, two => TimerPart.Grows.trans one two
  | .message _, _, _, _, one, two => MessagePart.Grows.trans one two

/-- All parts are consistent, and a message has led to no decision but the one that is remembered,
except for what a session is in the middle of. -/
structure Good (except : Option Unsettled) (tables : WorkflowTables) : Prop where
  processes : ∀ key, except ≠ some (.process key) → (tables.process key).Consistent
  timers : ∀ identity, except ≠ some (.timer identity) → (tables.timer identity).Consistent identity
  messages : ∀ identity, (tables.message identity).Consistent
  handled : ∀ key index applied identity, (tables.process key).decisions[index]? = some applied → applied.message = some identity →
    except ≠ some (.message identity key (index + 1)) → (tables.message identity).handled = some (key, index + 1)

theorem furthest_message (furthest : schema.Furthest Grows s t u) (identity : InboxIdentity) :
    MessagePart.Grows (s.message identity) (u.message identity) ∧ MessagePart.Grows (t.message identity) (u.message identity) := by
  rcases furthest (.message identity) with ⟨same, grown⟩ | ⟨same, grown⟩
  · change u.message identity = s.message identity at same
    exact ⟨same ▸ MessagePart.Grows.refl, grown⟩
  · change u.message identity = t.message identity at same
    exact ⟨grown, same ▸ MessagePart.Grows.refl⟩

theorem Good.merge (first : Good except s) (second : Good none t) (furthest : schema.Furthest Grows s t u) : Good except u := by
  refine ⟨fun key settled => ?_, fun identity settled => ?_, fun identity => ?_, fun key index applied identity found isFor settled => ?_⟩
  · rcases furthest (.process key) with ⟨same, -⟩ | ⟨same, -⟩
    · change u.process key = s.process key at same
      rw [same]
      exact first.processes key settled
    · change u.process key = t.process key at same
      rw [same]
      exact second.processes key (by simp)
  · rcases furthest (.timer identity) with ⟨same, -⟩ | ⟨same, -⟩
    · change u.timer identity = s.timer identity at same
      rw [same]
      exact first.timers identity settled
    · change u.timer identity = t.timer identity at same
      rw [same]
      exact second.timers identity (by simp)
  · rcases furthest (.message identity) with ⟨same, -⟩ | ⟨same, -⟩
    · change u.message identity = s.message identity at same
      rw [same]
      exact first.messages identity
    · change u.message identity = t.message identity at same
      rw [same]
      exact second.messages identity
  · rcases furthest (.process key) with ⟨same, -⟩ | ⟨same, -⟩
    · change u.process key = s.process key at same
      rw [same] at found
      exact (furthest_message furthest identity).1.handled _ (first.handled key index applied identity found isFor settled)
    · change u.process key = t.process key at same
      rw [same] at found
      exact (furthest_message furthest identity).2.handled _ (second.handled key index applied identity found isFor (by simp))

def discipline : Discipline schema where
  grows := Grows
  refl := Grows.refl
  trans := Grows.trans
  good := Good none
  merge := Good.merge

theorem process_other {name : ProcessKey} (other : write.row ≠ .process name) : (write.apply tables).process name = tables.process name :=
  part_untouched other tables

theorem timer_other {identity : TimerIdentity} (other : write.row ≠ .timer identity) :
    (write.apply tables).timer identity = tables.timer identity := part_untouched other tables

theorem message_other {identity : InboxIdentity} (other : write.row ≠ .message identity) :
    (write.apply tables).message identity = tables.message identity := part_untouched other tables

/-- A write to a process that adds no decision. -/
theorem Good.of_process (good : Good except tables) (own : write.row = .process key)
    (same : ((write.apply tables).process key).decisions = (tables.process key).decisions)
    (consistent : later ≠ some (.process key) → ((write.apply tables).process key).Consistent)
    (only : ∀ unsettled, except = some unsettled → later ≠ some unsettled → unsettled = .process key) :
    Good later (write.apply tables) := by
  have decisions : ∀ name, ((write.apply tables).process name).decisions = (tables.process name).decisions := by
    intro name
    by_cases mine : name = key
    · rw [mine]
      exact same
    · rw [process_other (by rw [own]; simpa using Ne.symm mine)]
  refine ⟨fun name settled => ?_, fun identity settled => ?_, fun identity => ?_, fun name index applied identity found isFor settled => ?_⟩
  · by_cases mine : name = key
    · subst mine
      exact consistent settled
    · rw [process_other (by rw [own]; simpa using Ne.symm mine)]
      exact good.processes name fun unsettled => mine (by cases only _ unsettled settled; rfl)
  · rw [timer_other (by rw [own]; simp)]
    exact good.timers identity fun unsettled => by cases only _ unsettled settled
  · rw [message_other (by rw [own]; simp)]
    exact good.messages identity
  · rw [decisions] at found
    rw [message_other (by rw [own]; simp)]
    exact good.handled name index applied identity found isFor fun unsettled => by cases only _ unsettled settled

/-- A decision settles its process and leaves its message to be completed. -/
theorem Good.advance {row : ProcessRow} {applied : AppliedDecision} (good : Good (some (.process key)) tables)
    (consistent : ((WorkflowWrite.apply (.advance key row applied) tables).process key).Consistent) :
    Good (applied.message.map fun identity => .message identity key ((tables.process key).decisions.length + 1))
      (WorkflowWrite.apply (.advance key row applied) tables) := by
  refine ⟨fun name _ => ?_, fun identity _ => ?_, fun identity => ?_, fun name index other identity found isFor settled => ?_⟩
  · by_cases mine : name = key
    · subst mine
      exact consistent
    · have others : (WorkflowWrite.advance key row applied).row ≠ .process name := by simpa [WorkflowWrite.row] using Ne.symm mine
      rw [process_other others]
      exact good.processes name (by simpa using Ne.symm mine)
  · exact good.timers identity (by simp)
  · exact good.messages identity
  · change (tables.message identity).handled = _
    by_cases mine : name = key
    · subst mine
      rw [process_advance] at found
      rcases Nat.lt_or_ge index (tables.process name).decisions.length with inside | outside
      · rw [List.getElem?_append_left inside] at found
        exact good.handled name index other identity found isFor (by simp)
      · rw [List.getElem?_append_right outside] at found
        have position : index = (tables.process name).decisions.length := by
          have inside := (List.getElem?_eq_some_iff.mp found).1
          rw [List.length_singleton] at inside
          omega
        subst position
        rw [Nat.sub_self, List.getElem?_cons_zero] at found
        cases found
        exact absurd (by rw [isFor]; rfl) settled
    · have others : (WorkflowWrite.advance key row applied).row ≠ .process name := by simpa [WorkflowWrite.row] using Ne.symm mine
      rw [process_other others] at found
      exact good.handled name index other identity found isFor (by simp)

/-- A write to a timer. -/
theorem Good.of_timer {identity : TimerIdentity} (good : Good except tables) (own : write.row = .timer identity)
    (consistent : later ≠ some (.timer identity) → ((write.apply tables).timer identity).Consistent identity)
    (only : ∀ unsettled, except = some unsettled → later ≠ some unsettled → unsettled = .timer identity) :
    Good later (write.apply tables) := by
  refine ⟨fun name settled => ?_, fun other settled => ?_, fun other => ?_, fun name index applied other found isFor settled => ?_⟩
  · rw [process_other (by rw [own]; simp)]
    exact good.processes name fun unsettled => by cases only _ unsettled settled
  · by_cases mine : other = identity
    · subst mine
      exact consistent settled
    · rw [timer_other (by rw [own]; simpa using Ne.symm mine)]
      exact good.timers other fun unsettled => mine (by cases only _ unsettled settled; rfl)
  · rw [message_other (by rw [own]; simp)]
    exact good.messages other
  · rw [process_other (by rw [own]; simp)] at found
    rw [message_other (by rw [own]; simp)]
    exact good.handled name index applied other found isFor fun unsettled => by cases only _ unsettled settled

/-- A write to a message that has led to no decision but one that is being settled. -/
theorem Good.of_message {identity : InboxIdentity} (good : Good except tables) (own : write.row = .message identity)
    (consistent : ((write.apply tables).message identity).Consistent)
    (handled : ∀ name index applied, (tables.process name).decisions[index]? = some applied → applied.message = some identity →
      later ≠ some (.message identity name (index + 1)) → ((write.apply tables).message identity).handled = some (name, index + 1))
    (only : ∀ unsettled, except = some unsettled → later ≠ some unsettled →
      ∃ name version, unsettled = .message identity name version) : Good later (write.apply tables) := by
  refine ⟨fun name settled => ?_, fun other settled => ?_, fun other => ?_, fun name index applied other found isFor settled => ?_⟩
  · rw [process_other (by rw [own]; simp)]
    exact good.processes name fun unsettled => by
      obtain ⟨_, _, same⟩ := only _ unsettled settled
      cases same
  · rw [timer_other (by rw [own]; simp)]
    exact good.timers other fun unsettled => by
      obtain ⟨_, _, same⟩ := only _ unsettled settled
      cases same
  · by_cases mine : other = identity
    · subst mine
      exact consistent
    · rw [message_other (by rw [own]; simpa using Ne.symm mine)]
      exact good.messages other
  · rw [process_other (by rw [own]; simp)] at found
    by_cases mine : other = identity
    · subst mine
      exact handled name index applied found isFor settled
    · rw [message_other (by rw [own]; simpa using Ne.symm mine)]
      exact good.handled name index applied other found isFor fun unsettled => by
        obtain ⟨_, _, same⟩ := only _ unsettled settled
        cases same
        exact mine rfl

end WorkflowTables

end Pytitect
