import Pytitect.Lib.Layers
import Pytitect.Sync.Graph

namespace Pytitect.DatasetDependencyGraph
open Relation

theorem mem_sortedNames {names : List String} {name : String} : name ∈ sortedNames names ↔ name ∈ names := List.mem_insertionSort _

/-- Names without repetition are sorted strictly. -/
theorem sortedNames_strict {names : List String} (distinct : names.Nodup) : (sortedNames names).Pairwise (· < ·) := by
  have sorted : (sortedNames names).Pairwise (· ≤ ·) := List.pairwise_insertionSort _ _
  have distinctSorted : (sortedNames names).Nodup := (List.perm_insertionSort _ _).nodup_iff.mpr distinct
  exact (sorted.and distinctSorted).imp fun both => lt_of_le_of_ne both.1 both.2

theorem sortedNames_eq_nil {names : List String} : sortedNames names = [] ↔ names = [] := by
  have same := (List.perm_insertionSort (· ≤ ·) names).length_eq
  constructor
  · intro none
    rw [sortedNames] at none
    rw [none] at same
    exact List.eq_nil_of_length_eq_zero same.symm
  · rintro rfl
    rfl

variable (graph : DatasetDependencyGraph) {selected : List String} {R : String → String → Prop} {k : Nat}
  {pending : Dict String (List String)} {output : List String}

/-- The parents of the graph as far as both ends are selected. -/
def Induced (selected : List String) (dataset parent : String) : Prop :=
  dataset ∈ selected ∧ parent ∈ selected ∧ parent ∈ graph.parents dataset

/-- `a` stands before `b`: its longest chain of parents is shorter, or as long and its name comes first. -/
def Before (R : String → String → Prop) (a b : String) : Prop :=
  ∃ m n, IsLevel R m a ∧ IsLevel R n b ∧ (m < n ∨ m = n ∧ a < b)

theorem Before.asymm {a b : String} (first : Before R a b) (second : Before R b a) : False := by
  obtain ⟨m, n, levelA, levelB, order⟩ := first
  obtain ⟨n', m', levelB', levelA', orderToo⟩ := second
  rw [Climbs.level_unique levelA' levelA, Climbs.level_unique levelB' levelB] at orderToo
  rcases order with less | ⟨same, less⟩
  · rcases orderToo with more | ⟨sameToo, -⟩
    · omega
    · omega
  · rcases orderToo with more | ⟨-, more⟩
    · omega
    · exact lt_asymm less more

/-- What `_order` has to give for the selected datasets. -/
def Canonical (R : String → String → Prop) (selected : List String) : DependencyValidation → Prop
  | .order names => (∀ name ∈ selected, ∃ n, IsLevel R n name) ∧ (∀ name, name ∈ names ↔ name ∈ selected) ∧ names.Pairwise (Before R)
  | .cycle names => names ≠ [] ∧ (∀ name, name ∈ names ↔ name ∈ selected ∧ ReachesCycle R name) ∧ names.Pairwise (· < ·)
  | .limitExceeded _ _ => False

/-- After `k` rounds the datasets are pending from which one can climb `k` parents, each with those of
its parents that are pending too. -/
structure Remaining (R : String → String → Prop) (selected : List String) (k : Nat) (pending : Dict String (List String)) : Prop where
  names : ∀ name, name ∈ pending.keys ↔ name ∈ selected ∧ Climbs R k name
  parents : ∀ name parents, pending.get? name = some parents → ∀ parent, parent ∈ parents ↔ R name parent ∧ Climbs R k parent

/-- The others have been put out in their order. -/
structure Emitted (R : String → String → Prop) (selected : List String) (k : Nat) (output : List String) : Prop where
  names : ∀ name, name ∈ output ↔ name ∈ selected ∧ ¬Climbs R k name
  sorted : output.Pairwise (Before R)

/-- A chain that ends before `k` steps gives the level. -/
theorem exists_level {name : String} (short : ¬Climbs R k name) : ∃ m < k, IsLevel R m name := by
  induction k with
  | zero => exact absurd (.zero name) short
  | succ k ih =>
    by_cases climbs : Climbs R k name
    · exact ⟨k, Nat.lt_succ_self k, climbs, short⟩
    · obtain ⟨m, less, level⟩ := ih climbs
      exact ⟨m, Nat.lt_succ_of_lt less, level⟩

theorem Remaining.mem_ready (remaining : Remaining R selected k pending) (name : String) :
    name ∈ ready pending ↔ name ∈ selected ∧ IsLevel R k name := by
  rw [DatasetDependencyGraph.mem_ready]
  constructor
  · intro found
    obtain ⟨isSelected, climbs⟩ := (remaining.names name).mp (Dict.keys_of_get? found)
    refine ⟨isSelected, climbs, fun further => ?_⟩
    cases further with
    | succ step rest =>
      have listed := (remaining.parents name [] found _).mpr ⟨step, rest⟩
      cases listed
  · rintro ⟨isSelected, climbs, no⟩
    have present := (remaining.names name).mpr ⟨isSelected, climbs⟩
    obtain ⟨parents, found⟩ := Option.ne_none_iff_exists'.mp (mt Dict.get?_eq_none.mp (not_not.mpr present))
    have none : parents = [] := List.eq_nil_iff_forall_not_mem.mpr fun parent member => by
      obtain ⟨step, rest⟩ := (remaining.parents name parents found parent).mp member
      exact no (.succ step rest)
    rw [found, none]

theorem Remaining.round (remaining : Remaining R selected k pending) (inside : ∀ a b, R a b → b ∈ selected) :
    Remaining R selected (k + 1) (round pending) := by
  have isReady := remaining.mem_ready
  constructor
  · intro name
    rw [← not_iff_not, ← Dict.get?_eq_none, get?_round]
    by_cases gone : name ∈ ready pending
    · rw [if_pos gone]
      have level := ((isReady name).mp gone).2
      simp [level.2]
    · rw [if_neg gone, Option.map_eq_none_iff, Dict.get?_eq_none, not_iff_not, remaining.names]
      refine and_congr_right fun isSelected => ⟨fun climbs => ?_, Climbs.of_succ⟩
      by_contra no
      exact gone ((isReady name).mpr ⟨isSelected, climbs, no⟩)
  · intro name parents found parent
    rw [get?_round] at found
    split at found
    · cases found
    obtain ⟨earlier, foundEarlier, rfl⟩ := Option.map_eq_some_iff.mp found
    rw [List.mem_filter, decide_eq_true_eq, remaining.parents name earlier foundEarlier, isReady]
    constructor
    · rintro ⟨⟨step, climbs⟩, left⟩
      refine ⟨step, ?_⟩
      by_contra no
      exact left ⟨inside _ _ step, climbs, no⟩
    · rintro ⟨step, climbs⟩
      exact ⟨⟨step, climbs.of_succ⟩, fun level => level.2.2 climbs⟩

theorem ready_strict (pending : Dict String (List String)) : (ready pending).Pairwise (· < ·) :=
  sortedNames_strict (pending.nodup.sublist (List.filter_sublist.map _))

theorem Emitted.round (emitted : Emitted R selected k output) (remaining : Remaining R selected k pending) :
    Emitted R selected (k + 1) (output ++ ready pending) := by
  have isReady := remaining.mem_ready
  constructor
  · intro name
    rw [List.mem_append, emitted.names, isReady]
    constructor
    · rintro (⟨isSelected, short⟩ | ⟨isSelected, level⟩)
      · exact ⟨isSelected, fun climbs => short climbs.of_succ⟩
      · exact ⟨isSelected, level.2⟩
    · rintro ⟨isSelected, short⟩
      by_cases climbs : Climbs R k name
      · exact Or.inr ⟨isSelected, climbs, short⟩
      · exact Or.inl ⟨isSelected, climbs⟩
  · refine List.pairwise_append.mpr ⟨emitted.sorted, ?_, ?_⟩
    · refine (ready_strict pending).imp_of_mem fun first second less => ?_
      exact ⟨k, k, ((isReady _).mp first).2, ((isReady _).mp second).2, Or.inr ⟨rfl, less⟩⟩
    · intro a first b second
      obtain ⟨m, less, level⟩ := exists_level ((emitted.names a).mp first).2
      exact ⟨m, k, level, ((isReady b).mp second).2, Or.inl less⟩

theorem orderLoop_canonical (inside : ∀ a b, R a b → b ∈ selected) (remaining : Remaining R selected k pending)
    (emitted : Emitted R selected k output) : Canonical R selected (orderLoop pending output) := by
  induction pending, output using orderLoop.induct generalizing k with
  | case1 pending output none =>
    rw [orderLoop, if_pos none]
    have short : ∀ name ∈ selected, ¬Climbs R k name := by
      intro name isSelected climbs
      have listed := (remaining.names name).mpr ⟨isSelected, climbs⟩
      rw [Dict.keys, none] at listed
      cases listed
    refine ⟨fun name isSelected => ?_, fun name => ?_, emitted.sorted⟩
    · obtain ⟨n, -, level⟩ := exists_level (short name isSelected)
      exact ⟨n, level⟩
    rw [emitted.names]
    exact ⟨fun both => both.1, fun isSelected => ⟨isSelected, short name isSelected⟩⟩
  | case2 pending output some stuck =>
    rw [orderLoop, if_neg some, dif_pos stuck]
    have onwards : ∀ name ∈ pending.keys, ∃ parent ∈ pending.keys, R name parent := by
      intro name isPending
      obtain ⟨isSelected, climbs⟩ := (remaining.names name).mp isPending
      have further : Climbs R (k + 1) name := by
        by_contra no
        have member := (remaining.mem_ready name).mpr ⟨isSelected, climbs, no⟩
        rw [stuck] at member
        cases member
      cases further with
      | succ step rest => exact ⟨_, (remaining.names _).mpr ⟨inside _ _ step, rest⟩, step⟩
    refine ⟨?_, fun name => ?_, sortedNames_strict pending.nodup⟩
    · rw [Ne, sortedNames_eq_nil, Dict.keys, List.map_eq_nil_iff]
      exact some
    · rw [mem_sortedNames]
      constructor
      · intro isPending
        exact ⟨((remaining.names name).mp isPending).1, reachesCycle_of_stuck onwards isPending⟩
      · rintro ⟨isSelected, reaches⟩
        exact (remaining.names name).mpr ⟨isSelected, .of_cycle reaches k⟩
  | case3 pending output some progress ih =>
    rw [orderLoop, if_neg some, dif_neg progress]
    exact ih (remaining.round inside) (emitted.round remaining)

theorem order_canonical (distinct : selected.Nodup) : Canonical (graph.Induced selected) selected (graph.order selected distinct) := by
  have keys : (graph.pendingOf selected distinct).keys = selected := by
    simp [pendingOf, Dict.keys, Function.comp_def]
  refine orderLoop_canonical (k := 0) (fun _ _ step => step.2.1) ⟨fun name => ?_, fun name parents found parent => ?_⟩
    ⟨fun name => ?_, List.Pairwise.nil⟩
  · rw [keys]
    exact ⟨fun isSelected => ⟨isSelected, .zero name⟩, fun both => both.1⟩
  · have entry := Dict.mem_items.mpr found
    obtain ⟨other, isSelected, same⟩ := List.mem_map.mp entry
    cases same
    rw [List.mem_filter, decide_eq_true_eq]
    exact ⟨fun both => ⟨⟨isSelected, both.2, both.1⟩, .zero parent⟩, fun both => ⟨both.1.2.2, both.1.2.1⟩⟩
  · exact ⟨fun member => absurd member List.not_mem_nil, fun both => absurd (.zero name) both.2⟩

theorem not_reachesCycle {n : Nat} {name : String} (level : IsLevel R n name) : ¬ReachesCycle R name :=
  fun reaches => level.2 (.of_cycle reaches (n + 1))

/-- At most one result fits. -/
theorem Canonical.unique {result again : DependencyValidation} (first : Canonical R selected result) (second : Canonical R selected again) :
    result = again := by
  have sameList : ∀ {r : String → String → Prop} {names others : List String}, (∀ a b, r a b → r b a → False) →
      names.Pairwise r → others.Pairwise r → (∀ name, name ∈ names ↔ name ∈ others) → names = others := by
    intro r names others asymm sorted sortedToo members
    have distinct : ∀ {xs : List String}, xs.Pairwise r → xs.Nodup := fun pairwise =>
      pairwise.imp fun {a b} before equal => by
        subst equal
        exact asymm a a before before
    have perm := (List.perm_ext_iff_of_nodup (distinct sorted) (distinct sortedToo)).mpr members
    exact perm.eq_of_pairwise (fun a b _ _ before after => (asymm a b before after).elim) sorted sortedToo
  cases result with
  | order names =>
    cases again with
    | order others =>
      obtain ⟨-, members, sorted⟩ := first
      obtain ⟨-, membersToo, sortedToo⟩ := second
      rw [sameList (fun _ _ => Before.asymm) sorted sortedToo fun name => (members name).trans (membersToo name).symm]
    | cycle others =>
      obtain ⟨some, members, -⟩ := second
      obtain ⟨name, member⟩ := List.exists_mem_of_ne_nil _ some
      obtain ⟨isSelected, reaches⟩ := (members name).mp member
      obtain ⟨n, level⟩ := first.1 name isSelected
      exact absurd reaches (not_reachesCycle level)
    | limitExceeded => exact second.elim
  | cycle names =>
    cases again with
    | order others =>
      obtain ⟨some, members, -⟩ := first
      obtain ⟨name, member⟩ := List.exists_mem_of_ne_nil _ some
      obtain ⟨isSelected, reaches⟩ := (members name).mp member
      obtain ⟨n, level⟩ := second.1 name isSelected
      exact absurd reaches (not_reachesCycle level)
    | cycle others =>
      obtain ⟨-, members, sorted⟩ := first
      obtain ⟨-, membersToo, sortedToo⟩ := second
      rw [sameList (fun _ _ => lt_asymm) sorted sortedToo fun name => (members name).trans (membersToo name).symm]
    | limitExceeded => exact second.elim
  | limitExceeded => exact first.elim

/-- The same datasets with the same parents, in whatever order. -/
def SameDependencies (first second : Dict String (List String)) : Prop :=
  (∀ name, name ∈ first.keys ↔ name ∈ second.keys) ∧
    ∀ name parent, parent ∈ (first.get? name).getD [] ↔ parent ∈ (second.get? name).getD []

theorem induced_same {graph other : DatasetDependencyGraph} (same : SameDependencies graph.dependencies other.dependencies)
    {selected again : List String} (members : ∀ name, name ∈ again ↔ name ∈ selected) : other.Induced again = graph.Induced selected := by
  funext dataset parent
  unfold Induced
  rw [members, members, parents, parents, same.2]

theorem Canonical.congr {again : List String} (members : ∀ name, name ∈ again ↔ name ∈ selected) {result : DependencyValidation}
    (canonical : Canonical R again result) : Canonical R selected result := by
  cases result with
  | order names =>
    obtain ⟨levels, all, sorted⟩ := canonical
    exact ⟨fun name member => levels name ((members name).mpr member), fun name => (all name).trans (members name), sorted⟩
  | cycle names =>
    obtain ⟨some, all, sorted⟩ := canonical
    exact ⟨some, fun name => (all name).trans (and_congr_left' (members name)), sorted⟩
  | limitExceeded => exact canonical.elim

/-- The order of the selected datasets depends on neither the order in which they come nor the one of the graph. -/
theorem order_same {graph other : DatasetDependencyGraph} (same : SameDependencies graph.dependencies other.dependencies)
    {selected again : List String} (distinct : selected.Nodup) (distinctToo : again.Nodup) (members : ∀ name, name ∈ again ↔ name ∈ selected) :
    other.order again distinctToo = graph.order selected distinct := by
  have canonical := other.order_canonical distinctToo
  rw [induced_same same members] at canonical
  exact (canonical.congr members).unique (graph.order_canonical distinct)

/-- Each of the selected datasets once, the parents among them first, by level and then by name. -/
def Ordered (R : String → String → Prop) (selected names : List String) : Prop :=
  names.Nodup ∧ (∀ name, name ∈ names ↔ name ∈ selected) ∧ (∀ name parent, R name parent → names.idxOf parent < names.idxOf name) ∧
    ∃ level : String → Nat, (∀ name ∈ selected, IsLevel R (level name) name) ∧
      names.Pairwise fun a b => level a < level b ∨ level a = level b ∧ a < b

/-- An acyclic relation gives the order, any other the datasets that reach a cycle, sorted. -/
def Outcome (R : String → String → Prop) (selected : List String) (result : DependencyValidation) : Prop :=
  ((∀ x, ¬TransGen R x x) → ∃ names, result = .order names ∧ Ordered R selected names) ∧
    ((∃ x, TransGen R x x) → ∃ names, result = .cycle names ∧ names.Pairwise (· < ·) ∧
      ∀ name, name ∈ names ↔ name ∈ selected ∧ ReachesCycle R name)

/-- Where there is no cycle every element that does not reach one has a level. -/
theorem Canonical.outcome {result : DependencyValidation} (inside : ∀ a b, R a b → a ∈ selected ∧ b ∈ selected)
    (canonical : Canonical R selected result) : Outcome R selected result := by
  have onCycle : ∀ x, TransGen R x x → x ∈ selected ∧ ReachesCycle R x := by
    intro x cycle
    obtain ⟨y, step, -⟩ := TransGen.head'_iff.mp cycle
    exact ⟨(inside x y step).1, x, .refl, cycle⟩
  cases result with
  | order names =>
    obtain ⟨free, members, sorted⟩ := canonical
    choose! level isLevel using free
    have orderly : names.Pairwise fun a b => level a < level b ∨ level a = level b ∧ a < b := by
      refine sorted.imp_of_mem fun {a b} memberA memberB before => ?_
      obtain ⟨m, n, levelA, levelB, less⟩ := before
      rw [Climbs.level_unique (isLevel a ((members a).mp memberA)) levelA, Climbs.level_unique (isLevel b ((members b).mp memberB)) levelB]
      exact less
    have distinct : names.Nodup := sorted.imp fun {a b} before equal => by
      subst equal
      exact before.asymm before
    refine ⟨fun _ => ⟨names, rfl, distinct, members, fun name parent step => ?_, level, isLevel, orderly⟩, fun ⟨x, cycle⟩ => ?_⟩
    · obtain ⟨nameIn, parentIn⟩ := inside name parent step
      have lower := Climbs.level_lt step (isLevel parent parentIn) (isLevel name nameIn)
      have nameFound := List.idxOf_lt_length_of_mem ((members name).mpr nameIn)
      have parentFound := List.idxOf_lt_length_of_mem ((members parent).mpr parentIn)
      by_contra notBefore
      rcases Nat.lt_or_eq_of_le (Nat.le_of_not_lt notBefore) with after | same
      · have compared := List.pairwise_iff_getElem.mp orderly _ _ nameFound parentFound after
        rw [List.getElem_idxOf, List.getElem_idxOf] at compared
        omega
      · have equal : name = parent := by rw [← List.getElem_idxOf nameFound, ← List.getElem_idxOf parentFound]; simp only [same]
        rw [equal] at lower
        exact lt_irrefl _ lower
    · obtain ⟨isSelected, reaches⟩ := onCycle x cycle
      exact absurd reaches (not_reachesCycle (isLevel x isSelected))
  | cycle names =>
    obtain ⟨some, members, sorted⟩ := canonical
    refine ⟨fun acyclic => ?_, fun _ => ⟨names, rfl, sorted, members⟩⟩
    obtain ⟨name, member⟩ := List.exists_mem_of_ne_nil _ some
    obtain ⟨-, y, -, cycle⟩ := (members name).mp member
    exact absurd cycle (acyclic y)
  | limitExceeded => exact canonical.elim

theorem order_outcome {selected names : List String} (distinct : names.Nodup) (members : ∀ name, name ∈ names ↔ name ∈ selected) :
    Outcome (graph.Induced selected) selected (graph.order names distinct) := by
  have canonical := graph.order_canonical distinct
  rw [induced_same ⟨fun _ => Iff.rfl, fun _ _ => Iff.rfl⟩ members] at canonical
  exact (canonical.congr members).outcome fun a b step => ⟨step.1, step.2.1⟩

theorem topologicalOrder_known (repr : List String → String) (datasets : Option (List String))
    (known : ∀ name ∈ datasets.getD graph.dependencies.keys, name ∈ graph.dependencies.keys)
    (fits : (datasets.getD graph.dependencies.keys).dedup.length ≤ graph.limits.maxDatasets) :
    graph.topologicalOrder repr datasets = .ok (graph.order (datasets.getD graph.dependencies.keys).dedup (List.nodup_dedup _)) := by
  have none : (datasets.getD graph.dependencies.keys).dedup.filter (· ∉ graph.dependencies.keys) = [] :=
    List.filter_eq_nil_iff.mpr fun name member => by simpa using known name (List.mem_dedup.mp member)
  unfold topologicalOrder
  dsimp only
  rw [if_neg (Nat.not_lt.mpr fits), none]

/-- The names of an entry of the mapping pass the check. -/
def Checked (item : String × List String) : Prop := checkDataset item.1 = .ok () ∧ ∀ parent ∈ item.2, checkDataset parent = .ok ()

theorem forM_checkDataset {names : List String} : names.forM checkDataset = .ok () ↔ ∀ name ∈ names, checkDataset name = .ok () := by
  induction names with
  | nil => exact ⟨fun _ name member => (nomatch member), fun _ => rfl⟩
  | cons first names ih =>
    have split : (first :: names).forM checkDataset = (checkDataset first >>= fun _ => names.forM checkDataset) := rfl
    rw [split, bind_ok_iff, List.forall_mem_cons, ← ih]
    constructor
    · rintro ⟨_, passed, rest⟩
      exact ⟨passed, rest⟩
    · rintro ⟨passed, rest⟩
      exact ⟨(), passed, rest⟩

/-- The copy has the entries of the mapping, where all names of it pass the check. -/
theorem copyDependencies_ok (copied : Dict String (List String)) {items : List (String × List String)} (nodup : (items.map Prod.fst).Nodup)
    (new : ∀ item ∈ items, item.1 ∉ copied.keys) {result : Dict String (List String)} :
    copyDependencies copied items = .ok result ↔
      (∀ item ∈ items, Checked item) ∧ result.items = copied.items ++ items.map fun item => (item.1, item.2.dedup) := by
  induction items generalizing copied with
  | nil =>
    rw [copyDependencies, Except.ok.injEq, Dict.ext_iff, List.map_nil, List.append_nil, eq_comm]
    exact ⟨fun same => ⟨fun item member => (nomatch member), same⟩, fun both => both.2⟩
  | cons item items ih =>
    obtain ⟨dataset, parents⟩ := item
    obtain ⟨other, nodupRest⟩ := List.nodup_cons.mp nodup
    have absent := new (dataset, parents) (List.mem_cons_self ..)
    have later : ∀ item ∈ items, item.1 ∉ (copied.set dataset parents.dedup).keys := by
      intro item member
      rw [Dict.keys_set_of_absent absent, List.mem_append, List.mem_singleton, not_or]
      exact ⟨new item (List.mem_cons_of_mem _ member), fun same => other (same ▸ List.mem_map_of_mem member)⟩
    have rest := ih (copied.set dataset parents.dedup) nodupRest later
    have checks : parents.dedup.forM checkDataset = .ok () ↔ ∀ parent ∈ parents, checkDataset parent = .ok () := by
      simp only [forM_checkDataset, List.mem_dedup]
    rw [Dict.items_set_of_absent absent, List.append_assoc] at rest
    rw [copyDependencies, bind_ok_iff, List.forall_mem_cons]
    constructor
    · rintro ⟨_, passed, others⟩
      obtain ⟨_, passedParents, others⟩ := bind_ok others
      obtain ⟨checked, same⟩ := rest.mp others
      exact ⟨⟨⟨passed, checks.mp passedParents⟩, checked⟩, same⟩
    · rintro ⟨⟨⟨passed, passedParents⟩, checked⟩, same⟩
      exact ⟨(), passed, bind_ok_iff.mpr ⟨(), checks.mpr passedParents, rest.mpr ⟨checked, same⟩⟩⟩

theorem make_iff {dependencies : Dict String (List String)} {limits : DependencyGraphLimits} {graph : DatasetDependencyGraph} :
    make dependencies limits = .ok graph ↔
      (∀ item ∈ dependencies.items, Checked item) ∧ graph.limits = limits ∧
        graph.dependencies = setDefaults (dependencies.mapValues List.dedup) ((dependencies.mapValues List.dedup).items.flatMap Prod.snd) := by
  have copies : ∀ copied, copyDependencies .empty dependencies.items = .ok copied ↔
      (∀ item ∈ dependencies.items, Checked item) ∧ copied = dependencies.mapValues List.dedup := by
    intro copied
    rw [copyDependencies_ok .empty dependencies.nodup fun _ _ member => (nomatch member), Dict.ext_iff]
    rfl
  rw [make, bind_ok_iff]
  constructor
  · rintro ⟨copied, copies', made⟩
    obtain ⟨checked, rfl⟩ := (copies copied).mp copies'
    cases made
    exact ⟨checked, rfl, rfl⟩
  · rintro ⟨checked, rfl, same⟩
    refine ⟨_, (copies _).mpr ⟨checked, rfl⟩, ?_⟩
    obtain ⟨limits, dependencies', closed⟩ := graph
    subst same
    rfl

/-- The datasets of the graph are those of the mapping and all parents that it names. -/
theorem setDefaults_same (dependencies : Dict String (List String)) (name : String) :
    (name ∈ (setDefaults (dependencies.mapValues List.dedup) ((dependencies.mapValues List.dedup).items.flatMap Prod.snd)).keys ↔
      name ∈ dependencies.keys ∨ ∃ dataset, name ∈ (dependencies.get? dataset).getD []) ∧
      ∀ parent, parent ∈ ((setDefaults (dependencies.mapValues List.dedup) ((dependencies.mapValues List.dedup).items.flatMap Prod.snd)).get? name).getD [] ↔
        parent ∈ (dependencies.get? name).getD [] := by
  have listed : name ∈ (dependencies.mapValues List.dedup).items.flatMap Prod.snd ↔ ∃ dataset, name ∈ (dependencies.get? dataset).getD [] := by
    rw [List.mem_flatMap]
    constructor
    · rintro ⟨⟨dataset, parents⟩, member, isParent⟩
      have found := Dict.mem_items.mp member
      rw [Dict.get?_mapValues] at found
      obtain ⟨own, foundOwn, rfl⟩ := Option.map_eq_some_iff.mp found
      exact ⟨dataset, by simpa [foundOwn] using isParent⟩
    · rintro ⟨dataset, isParent⟩
      cases found : dependencies.get? dataset with
      | none => simp [found] at isParent
      | some own =>
        rw [found] at isParent
        exact ⟨(dataset, own.dedup), Dict.mem_items.mpr (by rw [Dict.get?_mapValues, found]; rfl), List.mem_dedup.mpr isParent⟩
  constructor
  · rw [← not_iff_not, ← Dict.get?_eq_none, get?_setDefaults, Dict.get?_mapValues, Option.or_eq_none_iff, Option.map_eq_none_iff,
      Dict.get?_eq_none, not_or, ← listed]
    simp
  · intro parent
    rw [get?_setDefaults, Dict.get?_mapValues]
    cases found : dependencies.get? name with
    | some own => simp
    | none =>
      by_cases member : name ∈ (dependencies.mapValues List.dedup).items.flatMap Prod.snd
      · simp [member]
      · simp [member]

/-- Whether a mapping makes a graph, and which, does not depend on the order of its entries. -/
theorem make_same {dependencies again : Dict String (List String)} (same : SameDependencies dependencies again) {limits : DependencyGraphLimits}
    {graph : DatasetDependencyGraph} (made : make dependencies limits = .ok graph) :
    ∃ other, make again limits = .ok other ∧ other.limits = graph.limits ∧ SameDependencies graph.dependencies other.dependencies := by
  obtain ⟨checked, rfl, isGraph⟩ := make_iff.mp made
  have checkedToo : ∀ item ∈ again.items, Checked item := by
    rintro ⟨name, parents⟩ member
    have found := Dict.mem_items.mp member
    have present := (same.1 name).mpr (Dict.keys_of_get? found)
    obtain ⟨own, foundOwn⟩ := Option.ne_none_iff_exists'.mp (mt Dict.get?_eq_none.mp (not_not.mpr present))
    obtain ⟨passed, passedParents⟩ := checked (name, own) (Dict.mem_items.mpr foundOwn)
    refine ⟨passed, fun parent isParent => passedParents parent ?_⟩
    have sameParents := same.2 name parent
    rw [found, foundOwn] at sameParents
    exact sameParents.mpr isParent
  refine ⟨⟨graph.limits, _, fun _ _ => closed_setDefaults _⟩, make_iff.mpr ⟨checkedToo, rfl, rfl⟩, rfl, fun name => ?_, fun name parent => ?_⟩
  · rw [isGraph, (setDefaults_same dependencies name).1, (setDefaults_same again name).1, same.1]
    simp only [same.2]
  · rw [isGraph, (setDefaults_same dependencies name).2, (setDefaults_same again name).2, same.2]

theorem length_dedup_same {names again : List String} (members : ∀ name, name ∈ again ↔ name ∈ names) :
    again.dedup.length = names.dedup.length := by
  refine ((List.perm_ext_iff_of_nodup (List.nodup_dedup _) (List.nodup_dedup _)).mpr fun name => ?_).length_eq
  rw [List.mem_dedup, List.mem_dedup, members]

theorem length_keys (dependencies : Dict String (List String)) : dependencies.keys.dedup.length = dependencies.size := by
  have distinct : dependencies.keys.Nodup := dependencies.nodup
  rw [distinct.dedup, Dict.keys, List.length_map, Dict.size]

theorem validate_same {graph other : DatasetDependencyGraph} (same : SameDependencies graph.dependencies other.dependencies)
    (limits : other.limits = graph.limits) : other.validate = graph.validate := by
  have size : other.dependencies.size = graph.dependencies.size := by
    rw [← length_keys, ← length_keys]
    exact length_dedup_same fun name => (same.1 name).symm
  have order : other.order other.dependencies.keys other.dependencies.nodup = graph.order graph.dependencies.keys graph.dependencies.nodup :=
    order_same same graph.dependencies.nodup other.dependencies.nodup fun name => (same.1 name).symm
  rw [validate, validate, limits, size, order]

theorem topologicalOrder_same (repr : List String → String) {graph other : DatasetDependencyGraph}
    (same : SameDependencies graph.dependencies other.dependencies) (limits : other.limits = graph.limits) {selected again : List String}
    (known : ∀ name ∈ selected, name ∈ graph.dependencies.keys) (members : ∀ name, name ∈ again ↔ name ∈ selected) :
    other.topologicalOrder repr (some again) = graph.topologicalOrder repr (some selected) := by
  have lengths := length_dedup_same members
  by_cases fits : selected.dedup.length ≤ graph.limits.maxDatasets
  · have knownToo : ∀ name ∈ again, name ∈ other.dependencies.keys := fun name member =>
      (same.1 name).mp (known name ((members name).mp member))
    have fitsToo : again.dedup.length ≤ other.limits.maxDatasets := by
      rw [lengths, limits]
      exact fits
    rw [other.topologicalOrder_known repr (some again) knownToo fitsToo, graph.topologicalOrder_known repr (some selected) known fits]
    refine congrArg Except.ok (order_same same (List.nodup_dedup selected) (List.nodup_dedup again) fun name => ?_)
    rw [List.mem_dedup, List.mem_dedup, members]
  · unfold topologicalOrder
    dsimp only [Option.getD_some]
    rw [lengths, limits, if_pos (Nat.not_le.mp fits), if_pos (Nat.not_le.mp fits)]

/-- The datasets of the whole graph, and any selection of its datasets that is within the limit, are put into the order of
their levels and names, or the ones that reach a cycle are named; and neither the order of the mapping nor the one of the
selection plays a part in it. -/
theorem topological_order_canonical (repr : List String → String) (graph : DatasetDependencyGraph) :
    (graph.dependencies.size ≤ graph.limits.maxDatasets → Outcome (graph.Induced graph.dependencies.keys) graph.dependencies.keys graph.validate ∧
        graph.topologicalOrder repr none = .ok graph.validate) ∧
      (∀ selected : List String, (∀ name ∈ selected, name ∈ graph.dependencies.keys) → selected.dedup.length ≤ graph.limits.maxDatasets →
        ∃ result, graph.topologicalOrder repr (some selected) = .ok result ∧ Outcome (graph.Induced selected) selected result) ∧
      (∀ dependencies again : Dict String (List String), SameDependencies dependencies again → make dependencies graph.limits = .ok graph →
        ∃ other, make again graph.limits = .ok other ∧ SameDependencies graph.dependencies other.dependencies) ∧
      ∀ other : DatasetDependencyGraph, SameDependencies graph.dependencies other.dependencies → other.limits = graph.limits →
        other.validate = graph.validate ∧
          ∀ selected again : List String, (∀ name ∈ selected, name ∈ graph.dependencies.keys) → (∀ name, name ∈ again ↔ name ∈ selected) →
            other.topologicalOrder repr (some again) = graph.topologicalOrder repr (some selected) := by
  refine ⟨fun fits => ⟨?_, ?_⟩, fun selected known fits => ?_, fun dependencies again same made => ?_, fun other same limits => ⟨?_, ?_⟩⟩
  · rw [validate, if_neg (Nat.not_lt.mpr fits)]
    exact graph.order_outcome graph.dependencies.nodup fun _ => Iff.rfl
  · have fitsAll : graph.dependencies.keys.dedup.length ≤ graph.limits.maxDatasets := by
      rw [length_keys]
      exact fits
    rw [graph.topologicalOrder_known repr none (fun _ member => member) fitsAll, validate, if_neg (Nat.not_lt.mpr fits)]
    refine congrArg Except.ok (order_same ⟨fun _ => Iff.rfl, fun _ _ => Iff.rfl⟩ graph.dependencies.nodup (List.nodup_dedup _) fun name => ?_)
    exact List.mem_dedup
  · refine ⟨_, graph.topologicalOrder_known repr (some selected) known fits, ?_⟩
    exact graph.order_outcome (List.nodup_dedup _) fun _ => List.mem_dedup
  · obtain ⟨other, madeToo, -, sameGraph⟩ := make_same same made
    exact ⟨other, madeToo, sameGraph⟩
  · exact validate_same same limits
  · intro selected again known members
    exact topologicalOrder_same repr same limits known members

/-- Prices and rates depend on each other, and reports on prices. -/
def loopMapping : Dict String (List String) := ⟨[("reports", ["prices"]), ("rates", ["prices"]), ("prices", ["rates"])], by decide⟩

def loopGraph : DatasetDependencyGraph :=
  ⟨⟨4, 4, by decide⟩, setDefaults loopMapping (loopMapping.items.flatMap Prod.snd), fun _ _ => closed_setDefaults loopMapping⟩

/-- All of them reach the cycle; without the rates the reports follow the prices. -/
theorem loopGraph_ordered : loopGraph.validate = .cycle ["prices", "rates", "reports"] ∧
    Outcome (loopGraph.Induced loopGraph.dependencies.keys) loopGraph.dependencies.keys loopGraph.validate ∧
    ∃ result, loopGraph.topologicalOrder (fun _ => "") (some ["reports", "prices"]) = .ok result ∧
      Outcome (loopGraph.Induced ["reports", "prices"]) ["reports", "prices"] result ∧ result = .order ["prices", "reports"] := by
  obtain ⟨whole, part, -, -⟩ := topological_order_canonical (fun _ => "") loopGraph
  refine ⟨by decide +kernel, (whole (by decide)).1, ?_⟩
  obtain ⟨result, found, outcome⟩ := part ["reports", "prices"] (by decide) (by decide)
  refine ⟨result, found, outcome, ?_⟩
  have evaluated : loopGraph.topologicalOrder (fun _ => "") (some ["reports", "prices"]) = .ok (.order ["prices", "reports"]) := by decide +kernel
  exact Except.ok.inj (found.symm.trans evaluated)

end Pytitect.DatasetDependencyGraph
