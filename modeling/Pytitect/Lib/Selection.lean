import Pytitect.Lib.Dict
import Mathlib.Data.List.Sort

/-- The first `n` elements of a list once it is sorted by `le`. -/
def List.firstBy {α : Type} (le : α → α → Bool) (n : Nat) (xs : List α) : List α :=
  (xs.mergeSort le).take n

theorem List.mem_of_mem_firstBy {α : Type} {le : α → α → Bool} {n : Nat} {xs : List α} {x : α}
    (member : x ∈ xs.firstBy le n) : x ∈ xs :=
  List.mem_mergeSort.mp (List.mem_of_mem_take member)

/-- Take what still fits, in order: an element is left out if its weight would exceed the capacity. -/
def List.greedy {α : Type} (weight : α → Int) (capacity : Int) : Int → List α → List α
  | _, [] => []
  | used, x :: xs =>
    if used + weight x ≤ capacity then x :: greedy weight capacity (used + weight x) xs else greedy weight capacity used xs

theorem List.greedy_sublist {α : Type} (weight : α → Int) (capacity used : Int) (xs : List α) :
    (xs.greedy weight capacity used).Sublist xs := by
  induction xs generalizing used with
  | nil => exact .refl _
  | cons x xs ih =>
    unfold greedy
    split
    · exact (ih _).cons_cons x
    · exact (ih _).cons x

theorem List.greedy_map {α β : Type} (f : α → β) (weight : β → Int) (capacity used : Int) (xs : List α) :
    (xs.map f).greedy weight capacity used = (xs.greedy (fun x => weight (f x)) capacity used).map f := by
  induction xs generalizing used with
  | nil => rfl
  | cons x xs ih =>
    rw [List.map_cons, greedy, greedy]
    split
    · rw [ih, List.map_cons]
    · exact ih used

/-- The order by an instant and then by a text. -/
def EarlierThen {α : Type} (instant : α → Int) (text : α → String) (a b : α) : Prop :=
  instant a < instant b ∨ instant a = instant b ∧ text a ≤ text b

namespace EarlierThen
variable {α : Type} {instant : α → Int} {text : α → String}

instance : DecidableRel (EarlierThen instant text) := fun _ _ => inferInstanceAs (Decidable (_ ∨ _))

instance : Std.Total (EarlierThen instant text) where
  total a b := by
    rcases Int.lt_trichotomy (instant a) (instant b) with less | same | more
    · exact Or.inl (Or.inl less)
    · rcases String.le_total (text a) (text b) with before | behind
      · exact Or.inl (Or.inr ⟨same, before⟩)
      · exact Or.inr (Or.inr ⟨same.symm, behind⟩)
    · exact Or.inr (Or.inl more)

instance : IsTrans α (EarlierThen instant text) where
  trans a b c first second := by
    rcases first with less | ⟨same, before⟩ <;> rcases second with lessToo | ⟨sameToo, beforeToo⟩
    · exact Or.inl (Int.lt_trans less lessToo)
    · exact Or.inl (sameToo ▸ less)
    · exact Or.inl (same ▸ lessToo)
    · exact Or.inr ⟨same.trans sameToo, String.le_trans before beforeToo⟩

theorem antisymm {a b : α} (first : EarlierThen instant text a b) (second : EarlierThen instant text b a) : text a = text b := by
  rcases first with less | ⟨same, before⟩
  · rcases second with more | ⟨same, -⟩
    · exact absurd less (Int.lt_asymm more)
    · omega
  · rcases second with more | ⟨-, behind⟩
    · omega
    · exact String.le_antisymm before behind

end EarlierThen

namespace Dict
variable {κ ν μ : Type} [DecidableEq κ] {d : Dict κ ν} {e : Dict κ μ} {f : κ → ν → μ}

/-- The entry of a second dictionary that stands for an entry of the first. -/
def entryIn (f : κ → ν → μ) (entry : κ × ν) : κ × μ := (entry.1, f entry.1 entry.2)

/-- A dictionary whose values are functions of another one's has the same entries up to their order. -/
theorem items_perm (same : ∀ k, e.get? k = (d.get? k).map (f k)) : e.items.Perm (d.items.map (entryIn f)) := by
  have keys : (d.items.map (entryIn f)).map Prod.fst = d.keys := by
    rw [List.map_map]
    rfl
  have distinct : (d.items.map (entryIn f)).Nodup := List.Nodup.of_map Prod.fst (keys ▸ d.nodup)
  refine (List.perm_ext_iff_of_nodup (List.Nodup.of_map Prod.fst e.nodup) distinct).mpr ?_
  rintro ⟨k, value⟩
  rw [mem_items, same, Option.map_eq_some_iff, List.mem_map]
  constructor
  · rintro ⟨original, found, rfl⟩
    exact ⟨(k, original), mem_items.mpr found, rfl⟩
  · rintro ⟨⟨other, original⟩, member, equal⟩
    cases equal
    exact ⟨original, mem_items.mp member, rfl⟩

variable {mayD : κ × ν → Bool} {mayE : κ × μ → Bool} {R : κ × ν → κ × ν → Prop} {S : κ × μ → κ × μ → Prop}
  [DecidableRel R] [DecidableRel S] [Std.Total R] [IsTrans _ R] [Std.Total S] [IsTrans _ S]

/-- Filtering and sorting both dictionaries by matching tests and orders selects matching entries
in the same order. -/
theorem sorted_map (same : ∀ k, e.get? k = (d.get? k).map (f k)) (may : ∀ entry ∈ d.items, mayE (entryIn f entry) = mayD entry)
    (order : ∀ a ∈ d.items, ∀ b ∈ d.items, R a b → S (entryIn f a) (entryIn f b)) (antisymm : ∀ a b, S a b → S b a → a.1 = b.1) :
    (e.items.filter mayE).insertionSort S = ((d.items.insertionSort R).filter mayD).map (entryIn f) := by
  have filtered : (d.items.map (entryIn f)).filter mayE = (d.items.filter mayD).map (entryIn f) := by
    rw [List.filter_map]
    exact congrArg (List.map _) (List.filter_congr may)
  have content : ((e.items.filter mayE).insertionSort S).Perm (((d.items.insertionSort R).filter mayD).map (entryIn f)) := by
    refine (List.perm_insertionSort _ _).trans (((items_perm same).filter _).trans ?_)
    rw [filtered]
    exact ((List.perm_insertionSort _ _).symm.filter _).map _
  have ordered : (((d.items.insertionSort R).filter mayD).map (entryIn f)).Pairwise S := by
    rw [List.pairwise_map]
    refine (List.Pairwise.imp_of_mem ?_ (List.pairwise_insertionSort R _)).sublist List.filter_sublist
    exact fun inA inB before => order _ ((List.mem_insertionSort _).mp inA) _ ((List.mem_insertionSort _).mp inB) before
  refine List.Perm.eq_of_pairwise (fun a b inA inB first second => ?_) (List.pairwise_insertionSort _ _) ordered content
  have memA := List.mem_of_mem_filter ((List.mem_insertionSort _).mp inA)
  have memB := List.mem_of_mem_filter ((List.mem_insertionSort _).mp (content.mem_iff.mpr inB))
  exact List.inj_on_of_nodup_map e.nodup memA memB (antisymm a b first second)

end Dict
