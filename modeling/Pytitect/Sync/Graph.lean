import Mathlib.Data.List.Dedup
import Mathlib.Data.List.Sort
import Mathlib.Data.String.Basic
import Pytitect.Core
import Pytitect.Lib.Dict

namespace Pytitect

structure DependencyGraphLimits where
  maxDatasets : Nat
  maxPartitions : Nat
  positive : 0 < maxDatasets ∧ 0 < maxPartitions

/-- `DependencyOrder`, `DependencyCycle` and `DependencyLimitExceeded`. -/
inductive DependencyValidation
  | order (datasets : List String)
  | cycle (datasets : List String)
  | limitExceeded (resource : String) (limit : Nat)
  deriving DecidableEq

/-- `DependencyClosure`, `DependencyCycle` and `DependencyLimitExceeded`. -/
inductive DependencyClosureResult
  | closure (datasets : List String)
  | cycle (datasets : List String)
  | limitExceeded (resource : String) (limit : Nat)
  deriving DecidableEq

/-- `sorted` of names. -/
def sortedNames (names : List String) : List String := names.insertionSort (· ≤ ·)

/-- `_dataset` -/
def checkDataset (value : String) : Except PyError Unit :=
  if value = "" ∨ trimmed value = false then .error (.valueError "dataset names must be non-empty and trimmed") else .ok ()

/-- `DatasetDependencyGraph`. A `frozenset` is the list of its elements as they are iterated. Every
parent is a dataset of the graph. -/
structure DatasetDependencyGraph where
  limits : DependencyGraphLimits
  dependencies : Dict String (List String)
  closed : ∀ dataset parents, dependencies.get? dataset = some parents → ∀ parent ∈ parents, parent ∈ dependencies.keys

/-- The copy that the constructor makes of the mapping, entry by entry. -/
def copyDependencies (copied : Dict String (List String)) : List (String × List String) → Except PyError (Dict String (List String))
  | [] => .ok copied
  | (dataset, parents) :: rest => do
    checkDataset dataset
    parents.dedup.forM checkDataset
    copyDependencies (copied.set dataset parents.dedup) rest

/-- `copied.setdefault(name, frozenset())` for each of the names. -/
def setDefaults (copied : Dict String (List String)) (names : List String) : Dict String (List String) :=
  names.foldl (fun copied name => if name ∈ copied.keys then copied else copied.set name []) copied

theorem get?_setDefaults (copied : Dict String (List String)) (names : List String) (name : String) :
    (setDefaults copied names).get? name = (copied.get? name).or (if name ∈ names then some [] else none) := by
  unfold setDefaults
  induction names generalizing copied with
  | nil => simp
  | cons first names ih =>
    rw [List.foldl_cons, ih]
    by_cases present : first ∈ copied.keys
    · rw [if_pos present]
      by_cases same : name = first
      · subst same
        obtain ⟨parents, found⟩ := Option.ne_none_iff_exists'.mp (mt Dict.get?_eq_none.mp (not_not.mpr present))
        simp [found]
      · simp [same]
    · rw [if_neg present, Dict.get?_set]
      by_cases same : name = first
      · subst same
        simp [Dict.get?_eq_none.mpr present]
      · simp [same]

theorem closed_setDefaults (copied : Dict String (List String)) {dataset : String} {parents : List String}
    (found : (setDefaults copied (copied.items.flatMap Prod.snd)).get? dataset = some parents) :
    ∀ parent ∈ parents, parent ∈ (setDefaults copied (copied.items.flatMap Prod.snd)).keys := by
  intro parent member
  rw [get?_setDefaults] at found
  have listed : parent ∈ copied.items.flatMap Prod.snd := by
    cases known : copied.get? dataset with
    | some own =>
      rw [known] at found
      cases found
      exact List.mem_flatMap.mpr ⟨(dataset, parents), Dict.mem_items.mpr known, member⟩
    | none =>
      rw [known, Option.none_or] at found
      split at found
      · cases found
        cases member
      · cases found
  by_contra absent
  have missing := Dict.get?_eq_none.mpr absent
  rw [get?_setDefaults, if_pos listed] at missing
  cases known : copied.get? parent with
  | none => simp [known] at missing
  | some own => simp [known] at missing

namespace DatasetDependencyGraph

/-- `__init__` -/
def make (dependencies : Dict String (List String)) (limits : DependencyGraphLimits) : Except PyError DatasetDependencyGraph := do
  let copied ← copyDependencies .empty dependencies.items
  return ⟨limits, setDefaults copied (copied.items.flatMap Prod.snd), fun _ _ => closed_setDefaults copied⟩

variable (graph : DatasetDependencyGraph)

/-- `self._dependencies[dataset]` of a dataset of the graph. -/
def parents (dataset : String) : List String := (graph.dependencies.get? dataset).getD []

/-- The names without parents that are left. -/
def ready (pending : Dict String (List String)) : List String :=
  sortedNames ((pending.items.filter fun item => item.2 = []).map Prod.fst)

theorem mem_ready {pending : Dict String (List String)} {name : String} : name ∈ ready pending ↔ pending.get? name = some [] := by
  unfold ready sortedNames
  rw [List.mem_insertionSort, List.mem_map]
  constructor
  · rintro ⟨⟨_, parents⟩, member, rfl⟩
    obtain ⟨isEntry, empty⟩ := List.mem_filter.mp member
    rw [← of_decide_eq_true empty]
    exact Dict.mem_items.mp isEntry
  · intro found
    exact ⟨(name, []), List.mem_filter.mpr ⟨Dict.mem_items.mpr found, by simp⟩, rfl⟩

/-- A round of `_order`: what is ready is gone, also from the parents of the rest. -/
def round (pending : Dict String (List String)) : Dict String (List String) :=
  (pending.popAll (ready pending)).mapValues fun parents => parents.filter (· ∉ ready pending)

theorem get?_round (pending : Dict String (List String)) (name : String) :
    (round pending).get? name =
      if name ∈ ready pending then none else (pending.get? name).map fun parents => parents.filter (· ∉ ready pending) := by
  unfold round
  rw [Dict.get?_mapValues, Dict.get?_popAll]
  split <;> rfl

theorem size_round_lt {pending : Dict String (List String)} (progress : ready pending ≠ []) : (round pending).size < pending.size := by
  obtain ⟨name, member⟩ := List.exists_mem_of_ne_nil _ progress
  have entry := Dict.mem_items.mpr (mem_ready.mp member)
  unfold round Dict.size
  rw [Dict.mapValues, List.length_map, Dict.items_popAll]
  exact List.length_filter_lt_length_iff_exists.mpr ⟨_, entry, by simpa using member⟩

/-- The loop of `_order`. -/
def orderLoop (pending : Dict String (List String)) (output : List String) : DependencyValidation :=
  if pending.items = [] then .order output
  else if _progress : ready pending = [] then .cycle (sortedNames pending.keys)
  else orderLoop (round pending) (output ++ ready pending)
termination_by pending.size
decreasing_by exact size_round_lt _progress

/-- `pending` at the start of `_order`. -/
def pendingOf (selected : List String) (distinct : selected.Nodup) : Dict String (List String) :=
  ⟨selected.map fun name => (name, (graph.parents name).filter (· ∈ selected)), by simpa [Function.comp_def] using distinct⟩

/-- `_order` -/
def order (selected : List String) (distinct : selected.Nodup) : DependencyValidation := orderLoop (graph.pendingOf selected distinct) []

def validate : DependencyValidation :=
  if graph.limits.maxDatasets < graph.dependencies.size then .limitExceeded "datasets" graph.limits.maxDatasets
  else graph.order graph.dependencies.keys graph.dependencies.nodup

/-- `topological_order`; `repr` prints the list of the unknown names in its error. -/
def topologicalOrder (repr : List String → String) (datasets : Option (List String)) : Except PyError DependencyValidation :=
  let selected := (datasets.getD graph.dependencies.keys).dedup
  if graph.limits.maxDatasets < selected.length then .ok (.limitExceeded "datasets" graph.limits.maxDatasets)
  else
    match selected.filter (· ∉ graph.dependencies.keys) with
    | [] => .ok (graph.order selected (List.nodup_dedup _))
    | unknown => .error (.valueError ("unknown datasets: " ++ repr (sortedNames unknown)))

/-- The loop over the parents of a dataset: those that are not selected yet are selected and pending. -/
def visit (selected pending : List String) : List String → List String × List String
  | [] => (selected, pending)
  | parent :: rest =>
    if parent ∈ selected then visit selected pending rest else visit (selected ++ [parent]) (parent :: pending) rest

/-- What `visit` selects is new, and pending from then on. -/
theorem visit_eq (selected pending parents : List String) :
    ∃ new, visit selected pending parents = (selected ++ new, new.reverse ++ pending) ∧ new.Nodup ∧
      (∀ name ∈ new, name ∉ selected ∧ name ∈ parents) ∧ ∀ name ∈ parents, name ∈ selected ++ new := by
  induction parents generalizing selected pending with
  | nil => exact ⟨[], by simp [visit], List.nodup_nil, by simp, by simp⟩
  | cons parent rest ih =>
    unfold visit
    by_cases known : parent ∈ selected
    · rw [if_pos known]
      obtain ⟨new, same, distinct, fresh, covered⟩ := ih selected pending
      refine ⟨new, same, distinct, fun name member => ⟨(fresh name member).1, List.mem_cons_of_mem _ (fresh name member).2⟩, ?_⟩
      exact List.forall_mem_cons.mpr ⟨List.mem_append_left _ known, covered⟩
    · rw [if_neg known]
      obtain ⟨new, same, distinct, fresh, covered⟩ := ih (selected ++ [parent]) (parent :: pending)
      have other : parent ∉ new := fun member => (fresh parent member).1 (by simp)
      refine ⟨parent :: new, by simp [same], List.nodup_cons.mpr ⟨other, distinct⟩, ?_, ?_⟩
      · refine List.forall_mem_cons.mpr ⟨⟨known, List.mem_cons_self ..⟩, fun name member => ?_⟩
        obtain ⟨notSelected, isParent⟩ := fresh name member
        exact ⟨fun isSelected => notSelected (List.mem_append_left _ isSelected), List.mem_cons_of_mem _ isParent⟩
      · refine List.forall_mem_cons.mpr ⟨by simp, fun name member => ?_⟩
        simpa using covered name member

/-- The datasets of the graph that are not selected. -/
def unselected (selected : List String) : List String := graph.dependencies.keys.filter (· ∉ selected)

theorem parents_known {dataset parent : String} (member : parent ∈ graph.parents dataset) : parent ∈ graph.dependencies.keys := by
  unfold parents at member
  cases found : graph.dependencies.get? dataset with
  | none => simp [found] at member
  | some own =>
    rw [found] at member
    exact graph.closed dataset own found parent member

/-- Each turn of the loop of `closure` shortens the list of pending datasets, or moves datasets to it that were not selected. -/
theorem unselected_visit (selected pending : List String) (dataset : String) :
    (graph.unselected (visit selected pending (graph.parents dataset)).1).length +
      (visit selected pending (graph.parents dataset)).2.length ≤ (graph.unselected selected).length + pending.length := by
  obtain ⟨new, same, distinct, fresh, -⟩ := visit_eq selected pending (graph.parents dataset)
  rw [same]
  dsimp only
  have parts : new ++ graph.unselected (selected ++ new) ⊆ graph.unselected selected := by
    intro name member
    rcases List.mem_append.mp member with isNew | left
    · obtain ⟨notSelected, isParent⟩ := fresh name isNew
      exact List.mem_filter.mpr ⟨graph.parents_known isParent, decide_eq_true notSelected⟩
    · obtain ⟨isKnown, absent⟩ := List.mem_filter.mp left
      simp only [List.mem_append, not_or, decide_eq_true_eq] at absent
      exact List.mem_filter.mpr ⟨isKnown, decide_eq_true absent.1⟩
  have disjoint : (new ++ graph.unselected (selected ++ new)).Nodup := by
    refine List.nodup_append.mpr ⟨distinct, graph.dependencies.nodup.filter _, fun name isNew other left equal => ?_⟩
    subst equal
    have absent := of_decide_eq_true (List.mem_filter.mp left).2
    exact absent (List.mem_append_right _ isNew)
  have bound := (List.subperm_of_subset disjoint parts).length_le
  rw [List.length_append] at bound
  rw [List.length_append, List.length_reverse]
  omega

/-- The loop of `closure`; the head of `pending` is what `pop` takes. -/
def closureLoop (selected : List String) : List String → List String
  | [] => selected
  | current :: rest =>
    closureLoop (visit selected rest (graph.parents current)).1 (visit selected rest (graph.parents current)).2
termination_by pending => (graph.unselected selected).length + pending.length
decreasing_by
  have shrinks := graph.unselected_visit selected rest current
  rw [List.length_cons]
  omega

def closure (repr : List String → String) (datasets partitions : List String) : Except PyError DependencyClosureResult :=
  if graph.limits.maxPartitions < partitions.dedup.length then .ok (.limitExceeded "partitions" graph.limits.maxPartitions)
  else
    match datasets.dedup.filter (· ∉ graph.dependencies.keys) with
    | [] =>
      let selected := graph.closureLoop datasets.dedup datasets.dedup.reverse
      if graph.limits.maxDatasets < selected.length then .ok (.limitExceeded "datasets" graph.limits.maxDatasets)
      else
        match graph.order selected.dedup (List.nodup_dedup _) with
        | .order names => .ok (.closure names)
        | .cycle names => .ok (.cycle names)
        | .limitExceeded resource limit => .ok (.limitExceeded resource limit)
    | unknown => .error (.valueError ("unknown datasets: " ++ repr (sortedNames unknown)))

end DatasetDependencyGraph

end Pytitect
