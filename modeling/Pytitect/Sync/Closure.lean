import Pytitect.Sync.Ordering

namespace Pytitect.DatasetDependencyGraph
open Relation

variable (graph : DatasetDependencyGraph) {request selected pending partitions : List String}

def Parent (dataset parent : String) : Prop := parent ∈ graph.parents dataset

/-- The datasets that the request leads to. -/
def reachable (request : List String) : Set String := {name | ∃ origin ∈ {name | name ∈ request}, ReflTransGen graph.Parent origin name}

/-- What holds before every turn of the loop of `closure`: the request is selected, with no dataset that it does not
lead to, and a dataset whose parents are not all selected is pending. -/
structure Closing (request selected pending : List String) : Prop where
  requested : ∀ name ∈ request, name ∈ selected
  reached : ∀ name ∈ selected, name ∈ graph.reachable request
  distinct : selected.Nodup
  inside : ∀ name ∈ pending, name ∈ selected
  covered : ∀ name ∈ selected, name ∈ pending ∨ ∀ parent ∈ graph.parents name, parent ∈ selected

theorem closing_start (request : List String) : graph.Closing request request.dedup request.dedup.reverse where
  requested := fun _ member => List.mem_dedup.mpr member
  reached := fun name member => ⟨name, List.mem_dedup.mp member, .refl⟩
  distinct := List.nodup_dedup request
  inside := fun _ member => List.mem_reverse.mp member
  covered := fun _ member => Or.inl (List.mem_reverse.mpr member)

variable {graph}

theorem Closing.visit {current : String} (closing : graph.Closing request selected (current :: pending)) :
    graph.Closing request (visit selected pending (graph.parents current)).1 (visit selected pending (graph.parents current)).2 := by
  obtain ⟨new, same, distinct, fresh, covered⟩ := visit_eq selected pending (graph.parents current)
  rw [same]
  have isSelected := closing.inside current (List.mem_cons_self ..)
  constructor
  · intro name member
    exact List.mem_append_left _ (closing.requested name member)
  · intro name member
    rcases List.mem_append.mp member with old | isNew
    · exact closing.reached name old
    · obtain ⟨origin, requested, path⟩ := closing.reached current isSelected
      exact ⟨origin, requested, path.tail (fresh name isNew).2⟩
  · refine List.nodup_append.mpr ⟨closing.distinct, distinct, fun name old other isNew equal => ?_⟩
    subst equal
    exact (fresh name isNew).1 old
  · intro name member
    rcases List.mem_append.mp member with isNew | waiting
    · exact List.mem_append_right _ (List.mem_reverse.mp isNew)
    · exact List.mem_append_left _ (closing.inside name (List.mem_cons_of_mem _ waiting))
  · intro name member
    rcases List.mem_append.mp member with old | isNew
    · rcases closing.covered name old with waiting | all
      · rcases List.mem_cons.mp waiting with rfl | waiting
        · exact Or.inr covered
        · exact Or.inl (List.mem_append_right _ waiting)
      · exact Or.inr fun parent isParent => List.mem_append_left _ (all parent isParent)
    · exact Or.inl (List.mem_append_left _ (List.mem_reverse.mpr isNew))

theorem Closing.loop (closing : graph.Closing request selected pending) : graph.Closing request (graph.closureLoop selected pending) [] := by
  induction selected, pending using closureLoop.induct graph with
  | case1 selected =>
    rw [closureLoop]
    exact closing
  | case2 selected current rest ih =>
    rw [closureLoop]
    exact ih closing.visit

/-- When nothing is pending the selected datasets are those that the request leads to. -/
theorem Closing.mem_iff (closing : graph.Closing request selected []) (name : String) : name ∈ selected ↔ name ∈ graph.reachable request := by
  refine ⟨closing.reached name, ?_⟩
  rintro ⟨origin, requested, path⟩
  induction path with
  | refl => exact closing.requested origin requested
  | tail _ step ih =>
    rcases closing.covered _ ih with waiting | all
    · cases waiting
    · exact all _ step

variable (graph)

/-- `selected` after the loop. -/
def closureOf (request : List String) : List String := graph.closureLoop request.dedup request.dedup.reverse

theorem closureOf_nodup (request : List String) : (graph.closureOf request).Nodup := (graph.closing_start request).loop.distinct

theorem mem_closureOf (request : List String) (name : String) : name ∈ graph.closureOf request ↔ name ∈ graph.reachable request :=
  (graph.closing_start request).loop.mem_iff name

/-- The datasets that hold the request and, with each of their datasets, its parents. -/
def ClosedSuperset (request : List String) (names : Set String) : Prop :=
  (∀ name ∈ request, name ∈ names) ∧ ∀ name ∈ names, ∀ parent ∈ graph.parents name, parent ∈ names

theorem closureOf_isLeast (request : List String) : IsLeast {names | graph.ClosedSuperset request names} {name | name ∈ graph.closureOf request} := by
  have same : {name | name ∈ graph.closureOf request} = graph.reachable request := Set.ext (graph.mem_closureOf request)
  rw [same]
  exact isLeast_reachable graph.Parent {name | name ∈ request}

/-- A cycle below a selected dataset is a cycle of selected datasets. -/
theorem transGen_induced (closed : ∀ name ∈ selected, ∀ parent ∈ graph.parents name, parent ∈ selected) {first last : String}
    (member : first ∈ selected) (path : TransGen graph.Parent first last) : TransGen (graph.Induced selected) first last ∧ last ∈ selected := by
  induction path with
  | single step => exact ⟨.single ⟨member, closed _ member _ step, step⟩, closed _ member _ step⟩
  | tail _ step ih => exact ⟨ih.1.tail ⟨ih.2, closed _ ih.2 _ step, step⟩, closed _ ih.2 _ step⟩

theorem cycle_induced (closed : ∀ name ∈ selected, ∀ parent ∈ graph.parents name, parent ∈ selected) :
    (∃ name, TransGen (graph.Induced selected) name name) ↔ ∃ name ∈ selected, TransGen graph.Parent name name := by
  constructor
  · rintro ⟨name, cycle⟩
    obtain ⟨_, step, -⟩ := TransGen.head'_iff.mp cycle
    have weaker : graph.Induced selected ≤ graph.Parent := fun _ _ step => step.2.2
    exact ⟨name, step.1, TransGen.mono weaker _ _ cycle⟩
  · rintro ⟨name, member, cycle⟩
    exact ⟨name, (graph.transGen_induced closed member cycle).1⟩

/-- `closure` of known datasets, its partitions within their limit. -/
theorem closure_known (repr : List String → String) (known : ∀ name ∈ request, name ∈ graph.dependencies.keys)
    (fits : partitions.dedup.length ≤ graph.limits.maxPartitions) :
    graph.closure repr request partitions =
      if graph.limits.maxDatasets < (graph.closureOf request).length then .ok (.limitExceeded "datasets" graph.limits.maxDatasets)
      else
        match graph.order (graph.closureOf request).dedup (List.nodup_dedup _) with
        | .order names => .ok (.closure names)
        | .cycle names => .ok (.cycle names)
        | .limitExceeded resource limit => .ok (.limitExceeded resource limit) := by
  have none : request.dedup.filter (· ∉ graph.dependencies.keys) = [] :=
    List.filter_eq_nil_iff.mpr fun name member => by simpa using known name (List.mem_dedup.mp member)
  unfold closure
  rw [if_neg (Nat.not_lt.mpr fits), none]
  rfl

/-- Each dataset of `least` once, after its parents. -/
def ParentsFirst (least : Finset String) (names : List String) : Prop :=
  names.Nodup ∧ (∀ name, name ∈ names ↔ name ∈ least) ∧ ∀ name ∈ names, ∀ parent ∈ graph.parents name, names.idxOf parent < names.idxOf name

/-- What a closure gives whose least closed superset is `least`. -/
def ClosureCases (least : Finset String) (result : DependencyClosureResult) : Prop :=
  (graph.limits.maxDatasets < least.card ∧ result = .limitExceeded "datasets" graph.limits.maxDatasets) ∨
    least.card ≤ graph.limits.maxDatasets ∧
      (((∃ name ∈ least, TransGen graph.Parent name name) ∧ ∃ names, result = .cycle names) ∨
        (∀ name ∈ least, ¬TransGen graph.Parent name name) ∧ ∃ names, result = .closure names ∧ graph.ParentsFirst least names)

theorem closure_cases (repr : List String → String) (known : ∀ name ∈ request, name ∈ graph.dependencies.keys)
    (fits : partitions.dedup.length ≤ graph.limits.maxPartitions) :
    ∃ result, graph.closure repr request partitions = .ok result ∧ graph.ClosureCases (graph.closureOf request).toFinset result := by
  have whole : ∀ name ∈ graph.closureOf request, ∀ parent ∈ graph.parents name, parent ∈ graph.closureOf request :=
    (graph.closureOf_isLeast request).1.2
  have card : (graph.closureOf request).toFinset.card = (graph.closureOf request).length :=
    List.toFinset_card_of_nodup (graph.closureOf_nodup request)
  rw [graph.closure_known repr known fits]
  unfold ClosureCases
  simp only [card, List.mem_toFinset]
  by_cases large : graph.limits.maxDatasets < (graph.closureOf request).length
  · rw [if_pos large]
    exact ⟨_, rfl, Or.inl ⟨large, rfl⟩⟩
  rw [if_neg large]
  have small := Nat.not_lt.mp large
  have distinct := List.nodup_dedup (graph.closureOf request)
  have outcome : Outcome (graph.Induced (graph.closureOf request)) (graph.closureOf request) (graph.order (graph.closureOf request).dedup distinct) :=
    graph.order_outcome distinct fun _ => List.mem_dedup
  obtain ⟨acyclic, cyclic⟩ := outcome
  by_cases cycle : ∃ name ∈ graph.closureOf request, TransGen graph.Parent name name
  · obtain ⟨names, found, -⟩ := cyclic ((graph.cycle_induced whole).mpr cycle)
    rw [found]
    exact ⟨_, rfl, Or.inr ⟨small, Or.inl ⟨cycle, names, rfl⟩⟩⟩
  · have free := fun name around => cycle ((graph.cycle_induced whole).mp ⟨name, around⟩)
    obtain ⟨names, found, once, members, first, -⟩ := acyclic free
    rw [found]
    have none : ∀ name ∈ graph.closureOf request, ¬TransGen graph.Parent name name := fun name member around => cycle ⟨name, member, around⟩
    refine ⟨_, rfl, Or.inr ⟨small, Or.inr ⟨none, names, rfl, once, fun name => ?_, fun name member parent isParent => ?_⟩⟩⟩
    · rw [members, List.mem_toFinset]
    · have isSelected := (members name).mp member
      exact first name parent ⟨isSelected, whole name isSelected parent isParent, isParent⟩

/-- The result depends on the members of the request, of the partitions and of the graph only. -/
theorem closure_same (repr : List String → String) {graph other : DatasetDependencyGraph}
    (same : SameDependencies graph.dependencies other.dependencies) (limits : other.limits = graph.limits) {again partitionsAgain : List String}
    (known : ∀ name ∈ request, name ∈ graph.dependencies.keys) (members : ∀ name, name ∈ again ↔ name ∈ request)
    (partitionMembers : ∀ name, name ∈ partitionsAgain ↔ name ∈ partitions) :
    other.closure repr again partitionsAgain = graph.closure repr request partitions := by
  have lengths := length_dedup_same partitionMembers
  by_cases fits : partitions.dedup.length ≤ graph.limits.maxPartitions
  · have knownToo : ∀ name ∈ again, name ∈ other.dependencies.keys := fun name member =>
      (same.1 name).mp (known name ((members name).mp member))
    have fitsToo : partitionsAgain.dedup.length ≤ other.limits.maxPartitions := by
      rw [lengths, limits]
      exact fits
    have parent : other.Parent = graph.Parent := by
      funext dataset parent
      exact propext (same.2 dataset parent).symm
    have sameClosure : ∀ name, name ∈ other.closureOf again ↔ name ∈ graph.closureOf request := by
      intro name
      rw [mem_closureOf, mem_closureOf, reachable, reachable, parent]
      simp only [Set.mem_ofPred_eq, members]
    have size : (other.closureOf again).length = (graph.closureOf request).length := by
      have deduped := length_dedup_same sameClosure
      rwa [(other.closureOf_nodup again).dedup, (graph.closureOf_nodup request).dedup] at deduped
    have order : other.order (other.closureOf again).dedup (List.nodup_dedup _) = graph.order (graph.closureOf request).dedup (List.nodup_dedup _) := by
      refine order_same same (List.nodup_dedup _) (List.nodup_dedup _) fun name => ?_
      rw [List.mem_dedup, List.mem_dedup, sameClosure]
    rw [other.closure_known repr knownToo fitsToo, graph.closure_known repr known fits, limits, size, order]
  · unfold closure
    rw [lengths, limits, if_pos (Nat.not_le.mp fits), if_pos (Nat.not_le.mp fits)]

/-- The closure is the least set around the request that holds the parents of its datasets, parents first; it is refused
exactly when that set is too large or holds a cycle, and depends on no order in which the sets are iterated. -/
theorem closure_least (repr : List String → String) (graph : DatasetDependencyGraph) {request partitions : List String}
    (known : ∀ name ∈ request, name ∈ graph.dependencies.keys) (fits : partitions.dedup.length ≤ graph.limits.maxPartitions) :
    ∃ least : Finset String, IsLeast {names | graph.ClosedSuperset request names} ↑least ∧
      ∃ result, graph.closure repr request partitions = .ok result ∧
        ((∃ resource limit, result = .limitExceeded resource limit) ↔ graph.limits.maxDatasets < least.card) ∧
        ((∃ names, result = .cycle names) ↔ least.card ≤ graph.limits.maxDatasets ∧ ∃ name ∈ least, TransGen graph.Parent name name) ∧
        ((∃ names, result = .closure names) ↔ least.card ≤ graph.limits.maxDatasets ∧ ∀ name ∈ least, ¬TransGen graph.Parent name name) ∧
        (∀ names, result = .closure names → graph.ParentsFirst least names) ∧
        ∀ (other : DatasetDependencyGraph) (again partitionsAgain : List String),
          SameDependencies graph.dependencies other.dependencies → other.limits = graph.limits → (∀ name, name ∈ again ↔ name ∈ request) →
            (∀ name, name ∈ partitionsAgain ↔ name ∈ partitions) → other.closure repr again partitionsAgain = .ok result := by
  obtain ⟨result, found, outcome⟩ := graph.closure_cases repr known fits
  refine ⟨(graph.closureOf request).toFinset, ?_, result, found, ?_, ?_, ?_, ?_, ?_⟩
  · rw [List.coe_toFinset]
    exact graph.closureOf_isLeast request
  · rcases outcome with ⟨large, rfl⟩ | ⟨small, ⟨-, names, rfl⟩ | ⟨-, names, rfl, -⟩⟩
    · exact ⟨fun _ => large, fun _ => ⟨_, _, rfl⟩⟩
    · exact ⟨fun ⟨_, _, other⟩ => (nomatch other), fun large => absurd small (Nat.not_le.mpr large)⟩
    · exact ⟨fun ⟨_, _, other⟩ => (nomatch other), fun large => absurd small (Nat.not_le.mpr large)⟩
  · rcases outcome with ⟨large, rfl⟩ | ⟨small, ⟨cycle, names, rfl⟩ | ⟨free, names, rfl, -⟩⟩
    · exact ⟨fun ⟨_, other⟩ => (nomatch other), fun both => absurd both.1 (Nat.not_le.mpr large)⟩
    · exact ⟨fun _ => ⟨small, cycle⟩, fun _ => ⟨_, rfl⟩⟩
    · exact ⟨fun ⟨_, other⟩ => (nomatch other), fun ⟨_, name, member, around⟩ => absurd around (free name member)⟩
  · rcases outcome with ⟨large, rfl⟩ | ⟨small, ⟨⟨name, member, around⟩, names, rfl⟩ | ⟨free, names, rfl, -⟩⟩
    · exact ⟨fun ⟨_, other⟩ => (nomatch other), fun both => absurd both.1 (Nat.not_le.mpr large)⟩
    · exact ⟨fun ⟨_, other⟩ => (nomatch other), fun both => absurd around (both.2 name member)⟩
    · exact ⟨fun _ => ⟨small, free⟩, fun _ => ⟨_, rfl⟩⟩
  · rintro names rfl
    rcases outcome with ⟨-, other⟩ | ⟨-, ⟨-, _, other⟩ | ⟨-, _, same, first⟩⟩
    · cases other
    · cases other
    · cases same
      exact first
  · intro other again partitionsAgain same limits members partitionMembers
    rw [closure_same repr same limits known members partitionMembers, found]

/-- Reports need prices and prices need rates; the audit is left out. -/
def chainMapping : Dict String (List String) := ⟨[("reports", ["prices"]), ("prices", ["rates"]), ("audit", ["reports"])], by decide⟩

def chainGraph : DatasetDependencyGraph :=
  ⟨⟨3, 1, by decide⟩, setDefaults chainMapping (chainMapping.items.flatMap Prod.snd), fun _ _ => closed_setDefaults chainMapping⟩

theorem chainGraph_closure : ∃ least : Finset String, IsLeast {names | chainGraph.ClosedSuperset ["reports"] names} ↑least ∧
    chainGraph.ParentsFirst least ["rates", "prices", "reports"] ∧
    chainGraph.closure (fun _ => "") ["reports"] [] = .ok (.closure ["rates", "prices", "reports"]) := by
  obtain ⟨least, isLeast, result, found, -, -, -, first, -⟩ :=
    closure_least (fun _ => "") chainGraph (by decide : ∀ name ∈ ["reports"], name ∈ chainGraph.dependencies.keys)
      (by decide : ([] : List String).dedup.length ≤ chainGraph.limits.maxPartitions)
  have evaluated : chainGraph.closure (fun _ => "") ["reports"] [] = .ok (.closure ["rates", "prices", "reports"]) := by decide +kernel
  exact ⟨least, isLeast, first _ (Except.ok.inj (found.symm.trans evaluated)), evaluated⟩

end Pytitect.DatasetDependencyGraph
