import Pytitect.Jobs.Capacity
import Pytitect.Projections.Store

namespace Pytitect

namespace ProjectionStore
variable {s : ProjectionStore}

/-- The calls that change the store. -/
inductive Call
  | apply (key : ProjectionKey) (expectedCheckpoint projectionVersion : Nat) (state : JsonValue) (events : List StoredEvent)
  | beginRebuild (run : RebuildRun)
  | advanceRebuild (runId : String) (expectedPosition : Nat) (state : JsonValue) (nextPosition : Nat) (complete : Bool)

inductive Answer
  | applied (result : Except PyError ProjectionApplyResult)
  | began (result : Except PyError Bool)
  | advanced (result : Except PyError (Option RebuildRun))

def answer (s : ProjectionStore) : Call → Answer × ProjectionStore
  | .apply key expectedCheckpoint projectionVersion state events =>
    (.applied (s.apply key expectedCheckpoint projectionVersion state events).1,
      (s.apply key expectedCheckpoint projectionVersion state events).2)
  | .beginRebuild run => (.began (s.beginRebuild run).1, (s.beginRebuild run).2)
  | .advanceRebuild runId expectedPosition state nextPosition complete =>
    (.advanced (s.advanceRebuild runId expectedPosition state nextPosition complete).1,
      (s.advanceRebuild runId expectedPosition state nextPosition complete).2)

/-- What `begin_rebuild` counts. -/
def total (s : ProjectionStore) : Nat := s.states.size + s.rebuilds.size

/-- The call stores the first state of a key: an accepted `apply`, or the completion of a rebuild. -/
def Founds (s : ProjectionStore) : Call → Prop
  | .apply key expectedCheckpoint projectionVersion state events =>
    s.states.get? key = none ∧ expectedCheckpoint = 0 ∧ s.states.size < s.capacity ∧
      validateJson state .default = .ok () ∧ 0 < projectionVersion ∧ disordered events = false ∧
      events.head?.any (·.globalPosition ≤ expectedCheckpoint) = false
  | .beginRebuild _ => False
  | .advanceRebuild runId expectedPosition state nextPosition complete =>
    ∃ current, s.rebuilds.get? runId = some current ∧ s.states.get? current.key = none ∧ validateJson state .default = .ok () ∧
      current.status = .running ∧ current.nextPosition = expectedPosition ∧ nextPosition = current.throughPosition ∧ complete = true

/-- The first state of a key is stored while there is room for it beside everything else. -/
def Roomy (s : ProjectionStore) (call : Call) : Prop := s.Founds call → s.total < s.capacity

structure Within (capacity : Nat) (s : ProjectionStore) : Prop where
  sameCapacity : s.capacity = capacity
  bounded : s.total ≤ capacity

theorem size_set (d : Dict ProjectionKey ProjectionState) (key : ProjectionKey) (value : ProjectionState) :
    (d.set key value).size = d.size + if d.get? key = none then 1 else 0 := by
  by_cases absent : d.get? key = none
  · rw [if_pos absent, Dict.size_set_of_absent (Dict.get?_eq_none.mp absent)]
  · obtain ⟨old, found⟩ := Option.ne_none_iff_exists'.mp absent
    rw [if_neg absent, Dict.size_set_of_mem (Dict.keys_of_get? found)]
    rfl

/-- `apply` adds one to what is counted exactly if it stores the first state of its key. -/
theorem apply_total (s : ProjectionStore) (key : ProjectionKey) (expectedCheckpoint projectionVersion : Nat) (state : JsonValue)
    (events : List StoredEvent) :
    (s.apply key expectedCheckpoint projectionVersion state events).2.capacity = s.capacity ∧
      (s.Founds (.apply key expectedCheckpoint projectionVersion state events) ∧
          (s.apply key expectedCheckpoint projectionVersion state events).2.total = s.total + 1 ∨
        ¬s.Founds (.apply key expectedCheckpoint projectionVersion state events) ∧
          (s.apply key expectedCheckpoint projectionVersion state events).2.total = s.total) := by
  unfold apply
  split
  · rename_i error invalid
    refine ⟨rfl, Or.inr ⟨fun founds => ?_, rfl⟩⟩
    cases invalid.symm.trans founds.2.2.2.1
  rename_i valid
  split
  · rename_i positive
    split
    · rename_i disorder
      exact ⟨rfl, Or.inr ⟨fun founds => absurd disorder (by rw [founds.2.2.2.2.2.1]; simp), rfl⟩⟩
    rename_i ordered
    split
    · rename_i regress
      exact ⟨rfl, Or.inr ⟨fun founds => absurd regress (by rw [founds.2.2.2.2.2.2]; simp), rfl⟩⟩
    rename_i ahead
    unfold applyLocked
    dsimp only
    split
    · rename_i stale
      refine ⟨rfl, Or.inr ⟨fun founds => stale ?_, rfl⟩⟩
      rw [founds.1, founds.2.1]
      rfl
    rename_i current
    split
    · rename_i other mismatch
      refine ⟨rfl, Or.inr ⟨fun founds => ?_, rfl⟩⟩
      rw [founds.1] at mismatch
      cases mismatch
    split
    · rename_i full
      exact ⟨rfl, Or.inr ⟨fun founds => absurd founds.2.2.1 (by omega), rfl⟩⟩
    rename_i room
    refine ⟨rfl, ?_⟩
    simp only [total, size_set]
    by_cases absent : s.states.get? key = none
    · left
      rw [absent] at current room
      simp only [Option.map_none, Option.getD_none, not_not, Option.isNone_none, true_and, not_le] at current room
      refine ⟨⟨absent, current.symm, room, valid, positive, by simpa using ordered, by simpa using ahead⟩, ?_⟩
      rw [if_pos absent]
      omega
    · right
      refine ⟨fun founds => absent founds.1, ?_⟩
      rw [if_neg absent]
      rfl
  · rename_i negative
    exact ⟨rfl, Or.inr ⟨fun founds => negative founds.2.2.2.2.1, rfl⟩⟩

/-- So does `advance_rebuild`. -/
theorem advance_total (s : ProjectionStore) (runId : String) (expectedPosition : Nat) (state : JsonValue) (nextPosition : Nat)
    (complete : Bool) :
    (s.advanceRebuild runId expectedPosition state nextPosition complete).2.capacity = s.capacity ∧
      (s.Founds (.advanceRebuild runId expectedPosition state nextPosition complete) ∧
          (s.advanceRebuild runId expectedPosition state nextPosition complete).2.total = s.total + 1 ∨
        ¬s.Founds (.advanceRebuild runId expectedPosition state nextPosition complete) ∧
          (s.advanceRebuild runId expectedPosition state nextPosition complete).2.total = s.total) := by
  unfold advanceRebuild
  split
  · rename_i error invalid
    refine ⟨rfl, Or.inr ⟨?_, rfl⟩⟩
    rintro ⟨current, -, -, valid, -⟩
    cases invalid.symm.trans valid
  rename_i valid
  split
  · rename_i unknown
    refine ⟨rfl, Or.inr ⟨?_, rfl⟩⟩
    rintro ⟨current, found, -⟩
    cases unknown.symm.trans found
  rename_i current found
  split
  · rename_i moved
    refine ⟨rfl, Or.inr ⟨?_, rfl⟩⟩
    rintro ⟨other, foundOther, -, -, running, expected, -⟩
    cases found.symm.trans foundOther
    exact moved.elim (fun changed => changed running) fun changed => changed expected
  rename_i expected
  push Not at expected
  have rebuilds : ∀ run : RebuildRun, (s.rebuilds.set runId run).size = s.rebuilds.size :=
    fun run => Dict.size_set_of_mem (Dict.keys_of_get? found)
  unfold advanceRunning
  split
  · rename_i progress
    dsimp only
    split
    · rename_i blocked
      refine ⟨rfl, Or.inr ⟨?_, rfl⟩⟩
      rintro ⟨other, foundOther, absent, -⟩
      cases found.symm.trans foundOther
      rw [absent] at blocked
      simp at blocked
    split
    · rename_i isComplete
      have reached : nextPosition = current.throughPosition := by
        have same := progress.2.2
        rw [isComplete] at same
        exact of_decide_eq_true same.symm
      refine ⟨rfl, ?_⟩
      simp only [total, size_set, rebuilds]
      by_cases absent : s.states.get? current.key = none
      · left
        refine ⟨⟨current, found, absent, valid, expected.1, expected.2, reached, isComplete⟩, ?_⟩
        rw [if_pos absent]
        omega
      · right
        rw [if_neg absent]
        refine ⟨?_, rfl⟩
        rintro ⟨other, foundOther, none, -⟩
        cases found.symm.trans foundOther
        exact absent none
    · rename_i incomplete
      refine ⟨rfl, Or.inr ⟨?_, by simp only [total, rebuilds]⟩⟩
      rintro ⟨_, _, _, _, _, _, _, isComplete⟩
      exact incomplete isComplete
  · rename_i refused
    refine ⟨rfl, Or.inr ⟨?_, rfl⟩⟩
    rintro ⟨other, foundOther, -, -, -, -, reached, isComplete⟩
    cases found.symm.trans foundOther
    refine refused ⟨?_, by omega, ?_⟩
    · rw [reached]
      exact current.bounded
    · rw [isComplete, reached]
      simp

theorem beginRebuild_within {capacity : Nat} (within : Within capacity s) (run : RebuildRun) : Within capacity (s.beginRebuild run).2 := by
  have sameCapacity := within.sameCapacity
  unfold beginRebuild
  split
  · exact within
  rename_i absent
  split
  · exact within
  · rename_i room
    refine ⟨sameCapacity, ?_⟩
    simp only [total, Dict.size_set_of_absent absent]
    omega

theorem within_next {capacity : Nat} (within : Within capacity s) (call : Call) : Within capacity (s.answer call).2 ↔ s.Roomy call := by
  have bounded := within.bounded
  have sameCapacity := within.sameCapacity
  have of_total : ∀ t : ProjectionStore, t.capacity = s.capacity ∧ (s.Founds call ∧ t.total = s.total + 1 ∨ ¬s.Founds call ∧ t.total = s.total) →
      (Within capacity t ↔ s.Roomy call) := by
    rintro t ⟨same, ⟨founds, more⟩ | ⟨founds, equal⟩⟩
    · constructor
      · intro after _
        have bound := after.bounded
        omega
      · intro roomy
        have room := roomy founds
        exact ⟨same.trans sameCapacity, by omega⟩
    · exact iff_of_true ⟨same.trans sameCapacity, by omega⟩ fun isFirst => absurd isFirst founds
  cases call with
  | apply key expectedCheckpoint projectionVersion state events => exact of_total _ (s.apply_total ..)
  | beginRebuild run => exact iff_of_true (beginRebuild_within within run) fun impossible => impossible.elim
  | advanceRebuild runId expectedPosition state nextPosition complete => exact of_total _ (s.advance_total ..)

theorem answer_capacity (s : ProjectionStore) (call : Call) : (s.answer call).2.capacity = s.capacity := by
  cases call with
  | apply key expectedCheckpoint projectionVersion state events => exact (s.apply_total ..).1
  | beginRebuild run =>
    simp only [answer, beginRebuild]
    split
    · rfl
    split
    · rfl
    · rfl
  | advanceRebuild runId expectedPosition state nextPosition complete => exact (s.advance_total ..).1

theorem after_capacity (s : ProjectionStore) (calls : List Call) : (History.after answer s calls).capacity = s.capacity := by
  induction calls generalizing s with
  | nil => rfl
  | cons call rest ih => exact (ih _).trans (s.answer_capacity call)

theorem total_bounded_iff (capacity : Nat) (calls : List Call) :
    (∀ k, (History.after answer (empty capacity) (calls.take k)).total ≤ capacity) ↔
      ∀ k call, calls[k]? = some call → (History.after answer (empty capacity) (calls.take k)).Roomy call := by
  have start : Within capacity (empty capacity) := ⟨rfl, Nat.zero_le _⟩
  rw [← History.throughout_iff start fun s call within => within_next within call]
  refine forall_congr' fun k => ⟨fun bounded => ?_, Within.bounded⟩
  exact ⟨after_capacity _ _, bounded⟩

end ProjectionStore

/-- In any run of calls on an empty store of jobs, and in any on an empty store of projections, what is
counted stays within the capacity if and only if every job that succeeds, and every first state of a
projection, is stored while there is room for it. -/
theorem capacity_kept_iff {D : Type} (capacity : Nat) (jobCalls : List (JobStore.Call D)) (projectionCalls : List ProjectionStore.Call) :
    ((∀ k, (History.after JobStore.answer (JobStore.empty capacity) (jobCalls.take k)).total ≤ capacity) ↔
      ∀ k call, jobCalls[k]? = some call →
        (History.after JobStore.answer (JobStore.empty capacity) (jobCalls.take k)).Roomy call) ∧
    ((∀ k, (History.after ProjectionStore.answer (.empty capacity) (projectionCalls.take k)).total ≤ capacity) ↔
      ∀ k call, projectionCalls[k]? = some call →
        (History.after ProjectionStore.answer (.empty capacity) (projectionCalls.take k)).Roomy call) :=
  ⟨JobStore.total_bounded_iff capacity jobCalls, ProjectionStore.total_bounded_iff capacity projectionCalls⟩

/-- A store for one thing holds a job and, once it has succeeded, its decision too; another holds a
rebuild that was begun first, and a projection beside it. -/
theorem capacity_exceeded :
    (History.after JobStore.answer (JobStore.empty 1) [.schedule JobStore.freshJob, .claim 0 5 10 (Uuid.series 'a'),
      (.succeed ⟨JobStore.freshJob, Uuid.series 'a' 0, 10, 1, by decide⟩ () : JobStore.Call Unit)]).total = 2 ∧
    ∃ (run : RebuildRun) (key : ProjectionKey),
      (History.after ProjectionStore.answer (.empty 1) [.beginRebuild run, .apply key 0 1 .null []]).total = 2 :=
  ⟨rfl, ⟨"r", ⟨"p", "all", by decide⟩, 1, 1, 1, 0, .null, .running, by decide, by decide, by decide, rfl⟩, ⟨"p", "all", by decide⟩, rfl⟩

end Pytitect
