import Pytitect.Lib.Selection
import Mathlib.Logic.Function.Iterate

/-- A test that sorts any list: of two elements one may stand first, and it chains. -/
structure List.Sorts {ρ : Type} (le : ρ → ρ → Bool) : Prop where
  trans : ∀ a b c, le a b → le b c → le a c
  total : ∀ a b, (le a b || le b a) = true

/-- A comparison that can be chained sorts. -/
theorem List.sorts_of_cmp {ρ : Type} (cmp : ρ → ρ → Ordering) [Std.TransCmp cmp] : List.Sorts fun a b => (cmp a b).isLE where
  trans := fun _ _ _ first second => Std.TransCmp.isLE_trans first second
  total := fun a b => by
    have swapped : cmp b a = (cmp a b).swap := Std.OrientedCmp.eq_swap
    rw [swapped]
    cases cmp a b with
    | lt => rfl
    | eq => rfl
    | gt => rfl

/-- Comparing one key and then by a second comparison can be chained if both can. -/
instance List.transCmp_then {ρ β : Type} [Ord β] [Std.TransOrd β] (f : ρ → β) (cmp : ρ → ρ → Ordering) [Std.TransCmp cmp] :
    Std.TransCmp fun a b => (compare (f a) (f b)).then (cmp a b) :=
  inferInstanceAs (Std.TransCmp (compareLex (compareOn f) cmp))

instance List.transCmp_on {ρ β : Type} [Ord β] [Std.TransOrd β] (f : ρ → β) : Std.TransCmp fun a b => compare (f a) (f b) :=
  inferInstanceAs (Std.TransCmp (compareOn f))

theorem List.firstBy_map {ρ τ : Type} (f : ρ → τ) (le : τ → τ → Bool) (n : Nat) (xs : List ρ) :
    (xs.map f).firstBy le n = (xs.firstBy (fun a b => le (f a) (f b)) n).map f := by
  have sorted : (xs.mergeSort fun a b => le (f a) (f b)).map f = (xs.map f).mergeSort le :=
    List.map_mergeSort fun _ _ _ _ => rfl
  rw [List.firstBy, List.firstBy, List.map_take, sorted]

/-- A page of a clean-up: eligible records, sorted, as many as fit, and none of them behind one that
was left out. -/
structure List.OldestPage {ρ : Type} (le : ρ → ρ → Bool) (eligible : ρ → Bool) (size : Nat) (xs page : List ρ) : Prop where
  chosen : ∀ x ∈ page, x ∈ xs ∧ eligible x = true
  distinct : page.Nodup
  sorted : page.Pairwise fun a b => le a b = true
  oldest : ∀ x ∈ xs, eligible x = true → x ∉ page → ∀ y ∈ page, le y x = true
  full : page.length = min size (xs.countP eligible)

namespace Retention
variable {ρ κ : Type} {key : ρ → κ} {le : ρ → ρ → Bool} {eligible : ρ → Bool} {size : Nat} {xs : List ρ}

/-- The eligible records that a clean-up takes first. -/
def page (le : ρ → ρ → Bool) (eligible : ρ → Bool) (size : Nat) (xs : List ρ) : List ρ := (xs.filter eligible).firstBy le size

theorem mem_of_mem_page {x : ρ} (member : x ∈ page le eligible size xs) : x ∈ xs ∧ eligible x = true :=
  List.mem_filter.mp (List.mem_of_mem_firstBy member)

theorem length_page : (page le eligible size xs).length = min size (xs.countP eligible) := by
  rw [page, List.firstBy, List.length_take, List.length_mergeSort, List.countP_eq_length_filter]

theorem page_oldest (sorts : List.Sorts le) (distinct : xs.Nodup) : List.OldestPage le eligible size xs (page le eligible size xs) where
  chosen := fun _ member => mem_of_mem_page member
  distinct := ((List.mergeSort_perm _ _).nodup_iff.mpr (distinct.filter _)).sublist (List.take_sublist _ _)
  sorted := (List.pairwise_mergeSort sorts.trans sorts.total _).sublist (List.take_sublist _ _)
  oldest := fun x member isEligible left y chosen => by
    have listed : x ∈ (xs.filter eligible).mergeSort le := List.mem_mergeSort.mpr (List.mem_filter.mpr ⟨member, isEligible⟩)
    rw [← List.take_append_drop size ((xs.filter eligible).mergeSort le)] at listed
    have behind : x ∈ ((xs.filter eligible).mergeSort le).drop size := (List.mem_append.mp listed).resolve_left left
    have sorted := List.pairwise_mergeSort sorts.trans sorts.total (xs.filter eligible)
    rw [← List.take_append_drop size ((xs.filter eligible).mergeSort le)] at sorted
    exact (List.pairwise_append.mp sorted).2.2 y chosen x behind
  full := length_page

theorem map_page (other key : ρ → κ) (le : ρ → ρ → Bool) (eligible : ρ → Bool) (size : Nat) {xs : List ρ}
    (same : ∀ x ∈ xs, other x = key x) :
    (page le eligible size xs).map other = (page le eligible size xs).map key :=
  List.map_congr_left fun x member => same x (mem_of_mem_page member).1

variable [DecidableEq κ]

/-- What a clean-up leaves. -/
def rest (key : ρ → κ) (le : ρ → ρ → Bool) (eligible : ρ → Bool) (size : Nat) (xs : List ρ) : List ρ :=
  xs.filter fun x => key x ∉ (page le eligible size xs).map key

theorem mem_rest (distinct : (xs.map key).Nodup) {x : ρ} :
    x ∈ rest key le eligible size xs ↔ x ∈ xs ∧ x ∉ page le eligible size xs := by
  rw [rest, List.mem_filter, decide_eq_true_eq]
  refine and_congr_right fun member => not_congr ⟨fun listed => ?_, fun chosen => List.mem_map_of_mem chosen⟩
  obtain ⟨y, chosen, same⟩ := List.mem_map.mp listed
  rw [← List.inj_on_of_nodup_map distinct (mem_of_mem_page chosen).1 member same]
  exact chosen

theorem nodup_rest (distinct : (xs.map key).Nodup) : ((rest key le eligible size xs).map key).Nodup :=
  distinct.sublist (List.filter_sublist.map _)

/-- A record that is not eligible stays. -/
theorem filter_rest (distinct : (xs.map key).Nodup) :
    (rest key le eligible size xs).filter (fun x => !eligible x) = xs.filter fun x => !eligible x := by
  rw [rest, List.filter_filter]
  refine List.filter_congr fun x member => ?_
  cases isEligible : eligible x with
  | true => simp
  | false =>
    have kept : x ∈ rest key le eligible size xs := (mem_rest distinct).mpr ⟨member, fun chosen => by
      have eligibleToo := (mem_of_mem_page chosen).2
      rw [isEligible] at eligibleToo
      cases eligibleToo⟩
    rw [rest, List.mem_filter] at kept
    simpa using kept.2

/-- A clean-up takes as many eligible records as it may. -/
theorem countP_rest (distinct : (xs.map key).Nodup) :
    (rest key le eligible size xs).countP eligible = xs.countP eligible - size := by
  let sorted := (xs.filter eligible).mergeSort le
  let taken := fun x => decide (key x ∉ (sorted.take size).map key)
  have content : sorted.Perm (xs.filter eligible) := List.mergeSort_perm _ _
  have distinctSorted : (sorted.map key).Nodup :=
    (content.map key).nodup_iff.mpr (distinct.sublist (List.filter_sublist.map _))
  have parts : (sorted.take size).map key ++ (sorted.drop size).map key = sorted.map key := by
    rw [← List.map_append, List.take_append_drop]
  rw [← parts, List.nodup_append] at distinctSorted
  have front : (sorted.take size).countP taken = 0 := List.countP_eq_zero.mpr fun x member => by
    simp only [taken, decide_eq_true_eq, not_not]
    exact List.mem_map_of_mem member
  have back : (sorted.drop size).countP taken = (sorted.drop size).length := List.countP_eq_length.mpr fun x member => by
    refine decide_eq_true fun inFront => ?_
    exact distinctSorted.2.2 _ inFront _ (List.mem_map_of_mem member) rfl
  have left : (rest key le eligible size xs).countP eligible = (xs.filter eligible).countP taken := by
    rw [rest, List.countP_filter, List.countP_filter]
    exact List.countP_congr fun x _ => by rw [Bool.and_comm]; rfl
  rw [left, ← content.countP_eq, ← List.take_append_drop size sorted, List.countP_append, front, back, Nat.zero_add,
    List.length_drop, content.length_eq, List.countP_eq_length_filter]

/-- Repeated clean-ups remove the eligible records, however many those are, and no others. -/
theorem iterate_rest (distinct : (xs.map key).Nodup) {n : Nat} (enough : xs.countP eligible ≤ n * size) :
    (rest key le eligible size)^[n] xs = xs.filter fun x => !eligible x := by
  induction n generalizing xs with
  | zero =>
    rw [Nat.zero_mul, Nat.le_zero, List.countP_eq_zero] at enough
    exact (List.filter_eq_self.mpr fun x member => by simpa using enough x member).symm
  | succ n ih =>
    rw [Function.iterate_succ_apply, ih (nodup_rest distinct), filter_rest distinct]
    rw [countP_rest distinct]
    rw [Nat.succ_mul] at enough
    omega

theorem spared_iterate_rest (distinct : (xs.map key).Nodup) (n : Nat) :
    ((rest key le eligible size)^[n] xs).filter (fun x => !eligible x) = xs.filter fun x => !eligible x := by
  induction n generalizing xs with
  | zero => rfl
  | succ n ih => rw [Function.iterate_succ_apply, ih (nodup_rest distinct), filter_rest distinct]

end Retention
