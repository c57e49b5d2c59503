import Mathlib.Data.Fintype.Pigeonhole
import Mathlib.Data.Set.Finite.Basic
import Mathlib.Logic.Relation
import Mathlib.Order.Bounds.Basic
import Mathlib.Order.WellFounded

/-- From `x` one can climb `n` steps along the relation. -/
inductive Climbs {α : Type} (R : α → α → Prop) : Nat → α → Prop
  | zero (x : α) : Climbs R 0 x
  | succ {n : Nat} {x y : α} : R x y → Climbs R n y → Climbs R (n + 1) x

/-- From `x` a cycle of the relation is in reach. -/
def ReachesCycle {α : Type} (R : α → α → Prop) (x : α) : Prop := ∃ y, Relation.ReflTransGen R x y ∧ Relation.TransGen R y y

/-- The longest climb from `x` has `n` steps. -/
def IsLevel {α : Type} (R : α → α → Prop) (n : Nat) (x : α) : Prop := Climbs R n x ∧ ¬Climbs R (n + 1) x

namespace Climbs
variable {α : Type} {R : α → α → Prop} {x y : α} {m n : Nat}

theorem of_succ (climbs : Climbs R (n + 1) x) : Climbs R n x := by
  induction n generalizing x with
  | zero => exact .zero x
  | succ n ih =>
    cases climbs with
    | succ step rest => exact .succ step (ih rest)

theorem mono (climbs : Climbs R n x) (less : m ≤ n) : Climbs R m x := by
  induction less with
  | refl => exact climbs
  | step _ ih => exact ih climbs.of_succ

/-- One climbs further from below. -/
theorem of_transGen (path : Relation.TransGen R x y) (climbs : Climbs R n y) : Climbs R (n + 1) x := by
  induction path using Relation.TransGen.head_induction_on with
  | single step => exact .succ step climbs
  | head step _ ih => exact (Climbs.succ step ih).of_succ

/-- On a cycle there is no end to climbing. -/
theorem of_cycle (reaches : ReachesCycle R x) (n : Nat) : Climbs R n x := by
  obtain ⟨y, path, cycle⟩ := reaches
  have around : ∀ n, Climbs R n y := by
    intro n
    induction n with
    | zero => exact .zero y
    | succ n ih => exact of_transGen cycle ih
  rcases Relation.reflTransGen_iff_eq_or_transGen.mp path with rfl | path
  · exact around n
  · exact (of_transGen path (around n)).of_succ

theorem level_unique (first : IsLevel R m x) (second : IsLevel R n x) : m = n := by
  rcases Nat.lt_trichotomy m n with less | same | more
  · exact absurd (second.1.mono less) first.2
  · exact same
  · exact absurd (first.1.mono more) second.2

/-- A step leads to a lower level. -/
theorem level_lt (step : R x y) (lower : IsLevel R m y) (higher : IsLevel R n x) : m < n := by
  by_contra notLower
  exact higher.2 (.succ step (lower.1.mono (Nat.le_of_not_lt notLower)))

end Climbs

/-- In a finite set from which each element steps to another of the set, a cycle is in reach of all. -/
theorem reachesCycle_of_stuck {α : Type} {R : α → α → Prop} {xs : List α} (stuck : ∀ x ∈ xs, ∃ y ∈ xs, R x y) {x : α} (member : x ∈ xs) :
    ReachesCycle R x := by
  choose! next inside steps using stuck
  -- The walk that always takes the chosen step stays in the finite set, so it comes back to some element.
  have walk : ∀ n, next^[n] x ∈ xs := by
    intro n
    induction n with
    | zero => exact member
    | succ n ih =>
      rw [Function.iterate_succ_apply']
      exact inside _ ih
  have path : ∀ n k, Relation.ReflTransGen R (next^[n] x) (next^[n + k] x) := by
    intro n k
    induction k with
    | zero => exact .refl
    | succ k ih =>
      rw [← Nat.add_assoc, Function.iterate_succ_apply']
      exact ih.tail (steps _ (walk (n + k)))
  have finite : Finite {y // y ∈ xs} := (List.finite_toSet xs).to_subtype
  obtain ⟨m, n, different, again⟩ := Finite.exists_ne_map_eq_of_infinite fun n : Nat => (⟨next^[n] x, walk n⟩ : {y // y ∈ xs})
  have same : next^[m] x = next^[n] x := congrArg Subtype.val again
  clear again
  wlog less : m < n generalizing m n with sym
  · exact sym n m (Ne.symm different) same.symm (by omega)
  have around : Relation.TransGen R (next^[m] x) (next^[m] x) := by
    have first : R (next^[m] x) (next^[m + 1] x) := by
      rw [Function.iterate_succ_apply']
      exact steps _ (walk m)
    have rest := path (m + 1) (n - (m + 1))
    rw [show m + 1 + (n - (m + 1)) = n by omega, ← same] at rest
    exact .head' first rest
  have start := path 0 m
  rw [Nat.zero_add] at start
  exact ⟨_, start, around⟩

/-- What can be reached from a set is the least set around it that the relation does not leave. -/
theorem isLeast_reachable {α : Type} (R : α → α → Prop) (start : Set α) :
    IsLeast {s : Set α | start ⊆ s ∧ ∀ x ∈ s, ∀ y, R x y → y ∈ s} {y | ∃ x ∈ start, Relation.ReflTransGen R x y} := by
  refine ⟨⟨fun x member => ⟨x, member, .refl⟩, ?_⟩, ?_⟩
  · rintro x ⟨origin, member, path⟩ y step
    exact ⟨origin, member, path.tail step⟩
  · rintro s ⟨contains, closed⟩ y ⟨x, member, path⟩
    induction path with
    | refl => exact contains member
    | tail _ step ih => exact closed _ ih _ step

/-- From `x` one can step along the relation forever. -/
def Endless {α : Type} (R : α → α → Prop) (x : α) : Prop := ∃ chain : Nat → α, chain 0 = x ∧ ∀ n, R (chain n) (chain (n + 1))

theorem endless_iff {α : Type} {R : α → α → Prop} {x : α} : Endless R x ↔ ¬Acc (fun y x => R x y) x :=
  (not_acc_iff_exists_descending_chain (r := fun y x => R x y)).symm

theorem ReachesCycle.endless {α : Type} {R : α → α → Prop} {x : α} (reaches : ReachesCycle R x) : Endless R x := by
  rw [endless_iff]
  intro ends
  obtain ⟨y, path, cycle⟩ := reaches
  have endsThere : Acc (fun y x => R x y) y := by
    clear cycle
    induction path with
    | refl => exact ends
    | tail _ step ih => exact ih.inv step
  have noCycle : ∀ z, Acc (fun y x => R x y) z → ¬Relation.TransGen R z z := by
    intro z acc
    induction acc with
    | intro z _ ih =>
      intro around
      obtain ⟨w, step, back⟩ := Relation.TransGen.head'_iff.mp around
      exact ih w step (.tail' back step)
  exact noCycle y endsThere cycle
