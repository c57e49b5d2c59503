import Pytitect.Checkpoints.Coordinator
import Pytitect.Lib.History

namespace Pytitect
variable {P E : Type}

namespace DeferredCall

/-- The changes of the call under its number. -/
def numbered (call : DeferredCall P E) (number : Nat) : DeferredCall P (Nat × E) :=
  ⟨call.stream, call.items,
    fun i payload => ((call.applyState i payload).1.map (number, ·), (call.applyState i payload).2), call.rivals, call.closing⟩

/-- The changes that the loop makes, up to an exception. -/
def changesFrom (applyState : Nat → P → List E × Except PyError Unit) : List (Except PyError (CheckpointItem P)) → Nat → List E
  | [], _ => []
  | .error _ :: _, _ => []
  | .ok item :: rest, applied =>
    match applyState applied item.payload with
    | (changes, .error _) => changes
    | (changes, .ok ()) => changes ++ changesFrom applyState rest (applied + 1)

/-- The state effects of the call. -/
def changes (call : DeferredCall P E) : List E := changesFrom call.applyState call.items 0

/-- The checkpoint that the loop ends with, unless it raises. -/
def lastFrom (applyState : Nat → P → List E × Except PyError Unit) :
    List (Except PyError (CheckpointItem P)) → Nat → Option Checkpoint → Except PyError (Nat × Option Checkpoint)
  | [], applied, last => .ok (applied, last)
  | .error error :: _, _, _ => .error error
  | .ok item :: rest, applied, _ =>
    match (applyState applied item.payload).2 with
    | .error error => .error error
    | .ok () => lastFrom applyState rest (applied + 1) (some item.checkpoint)

/-- The call advances the checkpoint: it applies all of its items, there are some, its block ends
normally, and the store still has the checkpoint that the call began with. -/
def Advances (call : DeferredCall P E) (checkpoints : CheckpointStore) : Prop :=
  ∃ previous applied checkpoint, checkpoints.load call.stream = .ok previous ∧
    lastFrom call.applyState call.items 0 none = .ok (applied, some checkpoint) ∧ call.closing = .ok () ∧
    ((afterRivals checkpoints call.rivals).advance call.stream previous checkpoint).1 = .ok true

end DeferredCall

/-- A transaction boundary with a checkpoint store outside its transactions. For each stream it is
known which call set its checkpoint, and which changes that call made. -/
structure CheckpointWorld (E : Type) where
  blocks : Blocks (Nat × E)
  checkpoints : CheckpointStore
  calls : Nat
  setBy : String → Option (Nat × List E)

/-- What the caller does: it enters and leaves atomic blocks around its calls. -/
inductive CheckpointEvent (P E : Type)
  | enter
  | commit
  | rollback
  | apply (call : DeferredCall P E)

namespace CheckpointWorld

def start (capacity : Nat) : CheckpointWorld E := ⟨.empty, .empty capacity, 0, fun _ => none⟩

/-- The checkpoints that other workers advance are no longer those that a call has set. -/
def disowned (checkpoints : CheckpointStore) (setBy : String → Option (Nat × List E)) :
    List RivalAdvance → String → Option (Nat × List E)
  | [] => setBy
  | rival :: rest =>
    let advanced := checkpoints.advance rival.stream rival.expected rival.checkpoint
    disowned advanced.2
      (if advanced.1 = .ok true then fun stream => if stream = rival.stream then none else setBy stream else setBy) rest

/-- A call that confirms a checkpoint has set it. -/
def settled (call : DeferredCall P E) (number : Nat) (setBy : String → Option (Nat × List E)) :
    Except PyError DeferredCheckpointResult → String → Option (Nat × List E)
  | .ok (.confirmed ⟨_, _, some _⟩) => fun stream => if stream = call.stream then some (number, call.changes) else setBy stream
  | _ => setBy

/-- Which calls have set the checkpoints that the store has when the call comes to advance its own. -/
def known (w : CheckpointWorld E) (call : DeferredCall P E) : String → Option (Nat × List E) :=
  match w.checkpoints.load call.stream with
  | .error _ => w.setBy
  | .ok _ => disowned w.checkpoints w.setBy call.rivals

def step (w : CheckpointWorld E) : CheckpointEvent P E → Option (Except PyError DeferredCheckpointResult) × CheckpointWorld E
  | .enter => (none, { w with blocks := w.blocks.enter })
  | .commit => (none, { w with blocks := w.blocks.commit })
  | .rollback => (none, { w with blocks := w.blocks.rollback })
  | .apply call =>
    let outcome := (call.numbered w.calls).apply w.blocks w.checkpoints
    (some outcome.1, ⟨outcome.2.1, outcome.2.2, w.calls + 1,
      settled call w.calls (w.known call) outcome.1⟩)

/-- Whenever the store holds a checkpoint that a call has set, the changes of that call have been
committed by the outermost block. -/
def Truthful (w : CheckpointWorld E) : Prop :=
  ∀ stream number changes, w.setBy stream = some (number, changes) → ∀ change ∈ changes, (number, change) ∈ w.blocks.durable

/-- A call inside an atomic block of its caller changes no state or advances no checkpoint. -/
def Safe (w : CheckpointWorld E) : CheckpointEvent P E → Prop
  | .apply call => w.blocks.pending = [] ∨ call.changes = [] ∨ ¬call.Advances w.checkpoints
  | .enter | .commit | .rollback => True

open DeferredCall
variable {w : CheckpointWorld E} {call : DeferredCall P E} {event : CheckpointEvent P E} {blocks : Blocks (Nat × E)}
  {checkpoints : CheckpointStore} {number : Nat}

/-- The block of a call once its items are applied. -/
def entered (blocks : Blocks (Nat × E)) (number : Nat) (changes : List E) : Blocks (Nat × E) :=
  ⟨blocks.durable, changes.map (number, ·) :: blocks.pending⟩

theorem applyItems_eq (applyState : Nat → P → List E × Except PyError Unit) (number : Nat)
    (items : List (Except PyError (CheckpointItem P))) (applied : Nat) (last : Option Checkpoint) (durable : List (Nat × E))
    (inner : List (Nat × E)) (rest : List (List (Nat × E))) :
    applyItems (fun i payload => ((applyState i payload).1.map (number, ·), (applyState i payload).2)) items applied last
        ⟨durable, inner :: rest⟩ =
      (lastFrom applyState items applied last, ⟨durable, (inner ++ (changesFrom applyState items applied).map (number, ·)) :: rest⟩) := by
  induction items generalizing applied last inner with
  | nil => simp [applyItems, lastFrom, changesFrom]
  | cons item items ih =>
    rcases item with error | item
    · simp [applyItems, lastFrom, changesFrom]
    · rw [applyItems, lastFrom, changesFrom]
      cases done : applyState applied item.payload with
      | mk changes outcome =>
        cases outcome with
        | error error => simp [Blocks.write]
        | ok =>
          have later := ih (applied + 1) (some item.checkpoint) (inner ++ changes.map (number, ·))
          simp only [Blocks.write]
          rw [later, List.map_append, List.append_assoc]

/-- What a call can do: leave the checkpoint as it is, or advance it when its block has ended. -/
inductive Applied (call : DeferredCall P E) (number : Nat) (blocks : Blocks (Nat × E)) (checkpoints : CheckpointStore) :
    Except PyError DeferredCheckpointResult × Blocks (Nat × E) × CheckpointStore → Prop
  | idle (result : Except PyError DeferredCheckpointResult) (after : Blocks (Nat × E)) (store : CheckpointStore) :
      ¬call.Advances checkpoints → (∀ setBy, settled call number setBy result = setBy) →
      after = blocks ∨ after = (entered blocks number call.changes).commit → Applied call number blocks checkpoints (result, after, store)
  | advanced (batch : CheckpointBatchResult) (store : CheckpointStore) : call.Advances checkpoints → batch.pending ≠ none →
      Applied call number blocks checkpoints (.ok (.confirmed batch), (entered blocks number call.changes).commit, store)

theorem numbered_applied (call : DeferredCall P E) (number : Nat) (blocks : Blocks (Nat × E)) (checkpoints : CheckpointStore) :
    Applied call number blocks checkpoints ((call.numbered number).apply blocks checkpoints) := by
  have loop := applyItems_eq call.applyState number call.items 0 none blocks.durable [] blocks.pending
  rw [List.nil_append] at loop
  unfold DeferredCall.apply
  cases loaded : checkpoints.load call.stream with
  | error error =>
    simp only [numbered, loaded]
    refine .idle _ _ _ ?_ (fun _ => rfl) (Or.inl rfl)
    rintro ⟨previous, _, _, isLoaded, -⟩
    cases loaded.symm.trans isLoaded
  | ok previous =>
    simp only [numbered, loaded, Blocks.enter, loop]
    cases ran : lastFrom call.applyState call.items 0 none with
    | error error =>
      refine .idle _ _ _ ?_ (fun _ => rfl) (Or.inl rfl)
      rintro ⟨_, _, _, -, isLast, -⟩
      cases ran.symm.trans isLast
    | ok outcome =>
      obtain ⟨applied, last⟩ := outcome
      dsimp only
      cases closed : call.closing with
      | error error =>
        refine .idle _ _ _ ?_ (fun _ => rfl) (Or.inl rfl)
        rintro ⟨_, _, _, -, -, isClosed, -⟩
        cases closed.symm.trans isClosed
      | ok =>
        cases last with
        | none =>
          refine .idle _ _ _ ?_ (fun _ => rfl) (Or.inr rfl)
          rintro ⟨_, _, _, -, isLast, -⟩
          cases ran.symm.trans isLast
        | some checkpoint =>
          dsimp only
          cases advance : (afterRivals checkpoints call.rivals).advance call.stream previous checkpoint with
          | mk answer store =>
            have stays : answer ≠ .ok true → ¬call.Advances checkpoints := by
              rintro refused ⟨other, _, _, isLoaded, isLast, -, isAdvanced⟩
              cases loaded.symm.trans isLoaded
              cases ran.symm.trans isLast
              rw [advance] at isAdvanced
              exact refused isAdvanced
            rcases answer with error | (_ | _)
            · exact .idle _ _ _ (stays nofun) (fun _ => rfl) (Or.inr rfl)
            · exact .idle _ _ _ (stays nofun) (fun _ => rfl) (Or.inr rfl)
            · exact .advanced _ _ ⟨previous, applied, checkpoint, loaded, ran, closed, by rw [advance]⟩ nofun

theorem disowned_some {setBy : String → Option (Nat × List E)} {rivals : List RivalAdvance} {stream : String} {owner : Nat × List E}
    (owned : disowned checkpoints setBy rivals stream = some owner) : setBy stream = some owner := by
  induction rivals generalizing checkpoints setBy with
  | nil => exact owned
  | cons rival rest ih =>
    have before := ih owned
    split at before
    · dsimp only at before
      split at before
      · cases before
      · exact before
    · exact before

theorem entered_all {test : Nat × E → Prop} {changes : List E} (all : blocks.All test) (fit : ∀ change ∈ changes, test (number, change)) :
    (entered blocks number changes).All test := by
  refine ⟨all.1, List.forall_mem_cons.mpr ⟨fun change member => ?_, all.2⟩⟩
  obtain ⟨original, isOne, rfl⟩ := List.mem_map.mp member
  exact fit original isOne

/-- Every change was made by a call before. -/
def Numbered (w : CheckpointWorld E) : Prop := w.blocks.All fun change => change.1 < w.calls

theorem Numbered.step (numbered : Numbered w) (event : CheckpointEvent P E) : Numbered (w.step event).2 := by
  cases event with
  | enter => exact Blocks.All.enter numbered
  | commit => exact Blocks.All.commit numbered
  | rollback => exact Blocks.All.rollback numbered
  | apply call =>
    have grown : w.blocks.All fun change => change.1 < w.calls + 1 :=
      Blocks.All.mono numbered fun _ less => Nat.lt_succ_of_lt less
    have inside := (entered_all grown fun change _ => Nat.lt_succ_self _ : (entered w.blocks w.calls call.changes).All _).commit
    have applied := numbered_applied call w.calls w.blocks w.checkpoints
    unfold Numbered CheckpointWorld.step
    dsimp only
    generalize (call.numbered w.calls).apply w.blocks w.checkpoints = outcome at applied ⊢
    cases applied with
    | idle result after store _ _ blocks =>
      rcases blocks with rfl | rfl
      · exact grown
      · exact inside
    | advanced batch store => exact inside

theorem Truthful.step (truthful : Truthful w) (safe : Safe w event) : Truthful (w.step event).2 := by
  cases event with
  | enter => exact truthful
  | commit =>
    exact fun stream number changes owned change member => Blocks.durable_commit (truthful stream number changes owned change member)
  | rollback => exact truthful
  | apply call =>
    have kept : ∀ stream number changes, w.known call stream = some (number, changes) →
        ∀ change ∈ changes, (number, change) ∈ w.blocks.durable := by
      intro stream number changes owned
      cases loaded : w.checkpoints.load call.stream with
      | error error =>
        rw [known, loaded] at owned
        exact truthful stream number changes owned
      | ok previous =>
        rw [known, loaded] at owned
        exact truthful stream number changes (disowned_some owned)
    have inside : ∀ change ∈ w.blocks.durable, change ∈ (entered w.blocks w.calls call.changes).commit.durable :=
      fun change member => Blocks.durable_commit (b := entered w.blocks w.calls call.changes) member
    have applied := numbered_applied call w.calls w.blocks w.checkpoints
    unfold Truthful CheckpointWorld.step
    dsimp only
    generalize (call.numbered w.calls).apply w.blocks w.checkpoints = outcome at applied ⊢
    generalize w.known call = before at kept ⊢
    cases applied with
    | idle result after store _ unset blocks =>
      intro stream number changes owned change member
      rw [unset] at owned
      have durable := kept stream number changes owned change member
      rcases blocks with rfl | rfl
      · exact durable
      · exact inside _ durable
    | advanced batch store advances isPending =>
      intro stream number changes owned change member
      obtain ⟨applied, previous, pending⟩ := batch
      cases pending with
      | none => exact absurd rfl isPending
      | some checkpoint =>
        dsimp only [settled] at owned
        split at owned
        · cases owned
          -- The block of the call was the outermost one, so its end has committed the changes.
          have outermost : w.blocks.pending = [] := by
            rcases safe with outermost | nothing | refused
            · exact outermost
            · rw [nothing] at member
              cases member
            · exact absurd advances refused
          have ended : (entered w.blocks w.calls call.changes).pending = [call.changes.map (w.calls, ·)] := by
            rw [entered, outermost]
          rw [Blocks.commit_outermost ended]
          exact List.mem_append_right _ (List.mem_map_of_mem member)
        · exact inside _ (kept stream number changes owned change member)

/-- Any other call sets a checkpoint ahead of its changes. -/
theorem Numbered.ahead (numbered : Numbered w) (risky : ¬Safe w event) : ¬Truthful (w.step event).2 := by
  cases event with
  | enter => exact absurd trivial risky
  | commit => exact absurd trivial risky
  | rollback => exact absurd trivial risky
  | apply call =>
    rw [Safe, not_or, not_or, not_not] at risky
    obtain ⟨nested, changing, advances⟩ := risky
    obtain ⟨change, isChange⟩ := List.exists_mem_of_ne_nil _ changing
    obtain ⟨outer, rest, isNested⟩ := List.exists_cons_of_ne_nil nested
    have applied := numbered_applied call w.calls w.blocks w.checkpoints
    unfold Truthful CheckpointWorld.step
    dsimp only
    generalize (call.numbered w.calls).apply w.blocks w.checkpoints = outcome at applied ⊢
    cases applied with
    | idle result after store idle => exact absurd advances idle
    | advanced batch store _ isPending =>
      intro truthful
      obtain ⟨applied, previous, pending⟩ := batch
      cases pending with
      | none => exact isPending rfl
      | some checkpoint =>
        have inside : (entered w.blocks w.calls call.changes).pending = call.changes.map (w.calls, ·) :: outer :: rest := by
          rw [entered, isNested]
        have durable := truthful call.stream w.calls call.changes (if_pos rfl) change isChange
        rw [Blocks.commit_inside inside] at durable
        exact absurd (numbered.1 _ durable) (Nat.lt_irrefl _)

/-- As long as every call inside an atomic block of its caller changes no state or advances no
checkpoint, a checkpoint that a call has set never runs ahead of the changes that are committed; any
other call sets one that does. -/
theorem deferred_checkpoint_follows_commit (capacity : Nat) :
    (∀ (past : List (CheckpointEvent P E × _)) (w : CheckpointWorld E), History step (fun w _ event => Safe w event) (start capacity) past w → Truthful w) ∧
    ∀ (past : List (CheckpointEvent P E × _)) (w : CheckpointWorld E) (event : CheckpointEvent P E), History step (fun _ _ _ => True) (start capacity) past w → ¬Safe w event →
      ¬Truthful (w.step event).2 := by
  constructor
  · intro past w run
    exact run.state_invariant (fun _ _ _ owned => (by cases owned)) fun _ _ _ truthful safe => truthful.step safe
  · intro past w event run risky
    have numbered : Numbered w := run.state_invariant ⟨by simp [start, Blocks.empty], by simp [start, Blocks.empty]⟩
      fun _ _ event numbered _ => numbered.step event
    exact numbered.ahead risky

def oneChange : DeferredCall Unit Unit :=
  ⟨"s", [.ok ⟨⟨[1], by decide⟩, ()⟩], fun _ _ => ([()], .ok ()), [], .ok ()⟩

/-- Outside an atomic block the call commits its change before it advances the checkpoint, inside one
it does not. -/
theorem follows_outside :
    (∃ past, ∃ w : CheckpointWorld Unit, History step (fun w _ event => Safe w event) (start 5) past w ∧
      past.map (·.1) = [.apply oneChange] ∧ w.setBy "s" = some (0, [()]) ∧ w.blocks.durable = [(0, ())] ∧ Truthful w) ∧
    ¬Truthful ((History.after step (start 5) [(.enter : CheckpointEvent Unit Unit)]).step (.apply oneChange)).2 := by
  constructor
  · have permitted : History.Permitted step (fun w _ event => Safe w event) [] (start 5) [.apply oneChange] := ⟨Or.inl rfl, trivial⟩
    have run := History.ofInputs permitted
    exact ⟨_, _, run, rfl, rfl, rfl, (deferred_checkpoint_follows_commit 5).1 _ _ run⟩
  · have permitted : History.Permitted step (fun _ _ _ => True) [] (start 5) [(.enter : CheckpointEvent Unit Unit)] := ⟨trivial, trivial⟩
    refine (deferred_checkpoint_follows_commit 5).2 _ _ (.apply oneChange) (History.ofInputs permitted) fun safe => ?_
    rcases safe with outermost | nothing | refused
    · cases outermost
    · cases nothing
    · exact refused ⟨none, 1, ⟨[1], by decide⟩, rfl, rfl, rfl, rfl⟩

/-- Inside a block that is rolled back the checkpoint stays, and the change is lost. -/
theorem ahead_inside : ∃ past, ∃ w : CheckpointWorld Unit,
    History step (fun _ _ _ => True) (start 5) past w ∧ past.map (·.1) = [.enter, .apply oneChange, .rollback] ∧
      w.checkpoints.values.keys = ["s"] ∧ w.setBy "s" = some (0, [()]) ∧ w.blocks = .empty ∧ ¬Truthful w := by
  have permitted : History.Permitted step (fun _ _ _ => True) [] (start 5) [.enter, .apply oneChange, .rollback] :=
    ⟨trivial, trivial, trivial, trivial⟩
  refine ⟨_, _, History.ofInputs permitted, rfl, rfl, rfl, rfl, fun truthful => ?_⟩
  cases truthful "s" 0 [()] rfl () (List.mem_singleton_self _)

end CheckpointWorld

end Pytitect
