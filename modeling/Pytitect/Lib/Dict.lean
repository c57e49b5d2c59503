import Mathlib.Algebra.Order.Ring.Nat
import Mathlib.Data.List.Nodup
import Mathlib.Tactic.Common

/-- A dictionary that remembers the order in which its keys were inserted.
No key occurs twice, so an entry is found by its key alone. -/
structure Dict (κ ν : Type) where
  items : List (κ × ν)
  nodup : (items.map Prod.fst).Nodup
  deriving DecidableEq

namespace Dict
variable {κ ν : Type}

@[ext] theorem ext {d e : Dict κ ν} (same : d.items = e.items) : d = e := by
  cases d
  cases e
  simpa using same

def empty : Dict κ ν := ⟨[], List.nodup_nil⟩

def size (d : Dict κ ν) : Nat := d.items.length

@[simp] theorem size_empty : (empty : Dict κ ν).size = 0 := rfl

def keys (d : Dict κ ν) : List κ := d.items.map Prod.fst

/-- Keep only the entries that pass the test, in their order. -/
def filter (d : Dict κ ν) (keep : κ × ν → Bool) : Dict κ ν :=
  ⟨d.items.filter keep, d.nodup.sublist (List.filter_sublist.map _)⟩

/-- Rewrite every value in its place. -/
def mapValues (d : Dict κ ν) (f : ν → ν) : Dict κ ν :=
  ⟨d.items.map fun item => (item.1, f item.2), by simpa [Function.comp_def] using d.nodup⟩

/-- How many values pass the test. -/
def count (d : Dict κ ν) (test : ν → Bool) : Nat := d.items.countP fun item => test item.2

theorem size_filter_le (d : Dict κ ν) (keep : κ × ν → Bool) : (d.filter keep).size ≤ d.size :=
  List.length_filter_le _ _

variable [DecidableEq κ]

def get? (d : Dict κ ν) (k : κ) : Option ν := (d.items.find? (·.1 == k)).map Prod.snd

/-- Remove a key; an absent key changes nothing. -/
def pop (d : Dict κ ν) (k : κ) : Dict κ ν := d.filter (·.1 != k)

def popAll (d : Dict κ ν) (ks : List κ) : Dict κ ν := ks.foldl pop d

theorem mem_items {d : Dict κ ν} {k : κ} {v : ν} : (k, v) ∈ d.items ↔ d.get? k = some v := by
  obtain ⟨items, nodup⟩ := d
  simp only [get?]
  induction items with
  | nil => simp
  | cons head tail ih =>
    obtain ⟨headKey, headValue⟩ := head
    simp only [List.map_cons, List.nodup_cons] at nodup
    by_cases same : headKey = k
    · subst headKey
      have absent : (k, v) ∉ tail := fun member => nodup.1 (List.mem_map_of_mem member)
      simp [absent, eq_comm]
    · have other : (k, v) ≠ (headKey, headValue) := fun equal => same (congrArg Prod.fst equal).symm
      simp only [List.mem_cons, other, false_or, ih nodup.2]
      simp [same]

theorem get?_eq_none {d : Dict κ ν} {k : κ} : d.get? k = none ↔ k ∉ d.keys := by
  rw [Option.eq_none_iff_forall_ne_some]
  simp [← mem_items, keys]

theorem keys_of_get? {d : Dict κ ν} {k : κ} {v : ν} (found : d.get? k = some v) : k ∈ d.keys := by
  by_contra absent
  simp [get?_eq_none.mpr absent] at found

@[simp] theorem get?_empty (k : κ) : (empty : Dict κ ν).get? k = none := rfl

/-- Assign a key: a present key keeps its place, a new one goes to the end. -/
def set (d : Dict κ ν) (k : κ) (v : ν) : Dict κ ν :=
  if present : k ∈ d.keys then
    ⟨d.items.map (fun item => if item.1 = k then (k, v) else item), by
      have sameKeys : d.items.map (Prod.fst ∘ fun item => if item.1 = k then (k, v) else item) = d.keys := by
        refine List.map_congr_left fun item _ => ?_
        by_cases same : item.1 = k <;> simp [same]
      rw [List.map_map, sameKeys]
      exact d.nodup⟩
  else
    ⟨d.items ++ [(k, v)], by
      rw [List.map_append, List.nodup_append]
      refine ⟨d.nodup, List.nodup_singleton _, ?_⟩
      rintro old member new newMember rfl
      simp only [List.map_cons, List.map_nil, List.mem_singleton] at newMember
      exact present (newMember ▸ member)⟩

/-- Move a present key behind all others; an absent key changes nothing. -/
def moveToEnd (d : Dict κ ν) (k : κ) : Dict κ ν :=
  match d.get? k with
  | none => d
  | some v => (d.pop k).set k v

theorem get?_filter {d : Dict κ ν} {keep : κ × ν → Bool} {k : κ} :
    (d.filter keep).get? k = (d.get? k).filter (fun v => keep (k, v)) := by
  ext v
  rw [← mem_items, Option.filter_eq_some_iff, ← mem_items]
  simp [filter]

@[simp] theorem get?_mapValues (d : Dict κ ν) (f : ν → ν) (k : κ) : (d.mapValues f).get? k = (d.get? k).map f := by
  simp [get?, mapValues, List.find?_map, Function.comp_def]

theorem count_eq_zero {d : Dict κ ν} {test : ν → Bool} :
    d.count test = 0 ↔ ∀ k v, d.get? k = some v → test v = false := by
  simp [count, List.countP_eq_zero, ← mem_items]

@[simp] theorem get?_pop (d : Dict κ ν) (k j : κ) :
    (d.pop k).get? j = if j = k then none else d.get? j := by
  rw [pop, get?_filter]
  by_cases same : j = k
  · cases found : d.get? j <;> simp [same]
  · cases found : d.get? j <;> simp [same]

theorem get?_set (d : Dict κ ν) (k j : κ) (v : ν) :
    (d.set k v).get? j = if j = k then some v else d.get? j := by
  ext w
  rw [← mem_items]
  unfold set
  split
  · rename_i present
    obtain ⟨⟨key, old⟩, member, same⟩ := List.mem_map.mp present
    change key = k at same
    subst key
    by_cases equal : j = k
    · subst j
      simp only [List.mem_map, if_true, Option.some.injEq]
      constructor
      · rintro ⟨item, inItems, image⟩
        by_cases at_ : item.1 = k
        · simpa [at_] using image
        · simp only [at_, if_false] at image
          exact absurd (congrArg Prod.fst image) at_
      · rintro rfl
        exact ⟨(k, old), member, by simp⟩
    · rw [if_neg equal, ← mem_items]
      simp only [List.mem_map]
      constructor
      · rintro ⟨item, inItems, image⟩
        by_cases at_ : item.1 = k
        · simp only [at_, if_true] at image
          exact absurd (congrArg Prod.fst image).symm equal
        · simp only [at_, if_false] at image
          exact image ▸ inItems
      · intro inItems
        exact ⟨(j, w), inItems, by simp [equal]⟩
  · rename_i absent
    by_cases equal : j = k
    · subst j
      have fresh : (k, w) ∉ d.items := fun member => absent (List.mem_map_of_mem member)
      simp [fresh, eq_comm]
    · rw [if_neg equal, ← mem_items]
      simp [equal]

@[simp] theorem get?_set_self (d : Dict κ ν) (k : κ) (v : ν) : (d.set k v).get? k = some v := by
  simp [get?_set]

theorem get?_set_of_ne {d : Dict κ ν} {k j : κ} {v : ν} (other : j ≠ k) :
    (d.set k v).get? j = d.get? j := by
  simp [get?_set, other]

/-- What is found after an assignment is the new value or was there before. -/
theorem get?_set_cases {d : Dict κ ν} {k j : κ} {v w : ν} (found : (d.set k v).get? j = some w) :
    j = k ∧ w = v ∨ j ≠ k ∧ d.get? j = some w := by
  rw [get?_set] at found
  split at found
  · rename_i same
    exact Or.inl ⟨same, (Option.some.inj found).symm⟩
  · rename_i different
    exact Or.inr ⟨different, found⟩

@[simp] theorem get?_moveToEnd (d : Dict κ ν) (k j : κ) : (d.moveToEnd k).get? j = d.get? j := by
  unfold moveToEnd
  split
  · rfl
  · rename_i v found
    by_cases same : j = k
    · subst j
      simp [found]
    · simp [get?_set, same]

theorem get?_popAll (d : Dict κ ν) (ks : List κ) (j : κ) :
    (d.popAll ks).get? j = if j ∈ ks then none else d.get? j := by
  unfold popAll
  induction ks generalizing d with
  | nil => simp
  | cons k ks ih =>
    rw [List.foldl_cons, ih]
    by_cases later : j ∈ ks
    · simp [later]
    · simp [later, get?_pop]

/-- The entries that are left when keys are removed. -/
theorem items_popAll (d : Dict κ ν) (ks : List κ) : (d.popAll ks).items = d.items.filter fun item => item.1 ∉ ks := by
  unfold popAll
  induction ks generalizing d with
  | nil => simp
  | cons k ks ih =>
    rw [List.foldl_cons, ih, pop, filter, List.filter_filter]
    refine List.filter_congr fun item _ => ?_
    by_cases same : item.1 = k
    · simp [same]
    · simp [same]

theorem size_pop_le (d : Dict κ ν) (k : κ) : (d.pop k).size ≤ d.size :=
  d.size_filter_le _

theorem size_popAll_le (d : Dict κ ν) (ks : List κ) : (d.popAll ks).size ≤ d.size := by
  unfold popAll
  induction ks generalizing d with
  | nil => exact Nat.le_refl _
  | cons k ks ih => exact Nat.le_trans (ih _) (d.size_pop_le k)

theorem size_set_of_mem {d : Dict κ ν} {k : κ} {v : ν} (present : k ∈ d.keys) :
    (d.set k v).size = d.size := by
  simp [set, present, size]

theorem size_set_of_absent {d : Dict κ ν} {k : κ} {v : ν} (absent : k ∉ d.keys) :
    (d.set k v).size = d.size + 1 := by
  simp [set, absent, size]

theorem items_set_of_absent {d : Dict κ ν} {k : κ} {v : ν} (absent : k ∉ d.keys) :
    (d.set k v).items = d.items ++ [(k, v)] := by
  simp [set, absent]

theorem keys_set_of_absent {d : Dict κ ν} {k : κ} {v : ν} (absent : k ∉ d.keys) : (d.set k v).keys = d.keys ++ [k] := by
  simp [keys, items_set_of_absent absent]

/-- A view of the entries that does not tell the new value from the old one is
not changed by replacing it. -/
theorem map_items_set_of_mem {β : Type} {f : κ × ν → β} {d : Dict κ ν} {k : κ} {old new : ν} (found : d.get? k = some old)
    (same : f (k, new) = f (k, old)) : (d.set k new).items.map f = d.items.map f := by
  unfold set
  rw [dif_pos (keys_of_get? found)]
  rw [List.map_map]
  refine List.map_congr_left fun item member => ?_
  obtain ⟨key, value⟩ := item
  by_cases mine : key = k
  · subst mine
    cases (mem_items.mp member).symm.trans found
    simp [same]
  · simp [mine]

theorem sum_replaced_le {items : List (κ × ν)} (nodup : (items.map Prod.fst).Nodup) (k : κ) (v : ν) (cost : κ × ν → Nat) :
    ((items.map fun item => if item.1 = k then (k, v) else item).map cost).sum ≤ (items.map cost).sum + cost (k, v) := by
  induction items with
  | nil => exact Nat.zero_le _
  | cons head rest ih =>
    rw [List.map_cons, List.nodup_cons] at nodup
    simp only [List.map_cons, List.sum_cons]
    by_cases same : head.1 = k
    · have unchanged : (rest.map fun item => if item.1 = k then (k, v) else item) = rest := by
        refine (List.map_congr_left fun item member => if_neg fun again => ?_).trans (List.map_id rest)
        exact nodup.1 (same ▸ again ▸ List.mem_map_of_mem member)
      rw [if_pos same, unchanged]
      omega
    · rw [if_neg same]
      have later := ih nodup.2
      omega

/-- An assignment adds at most what the new entry costs. -/
theorem sum_set_le (d : Dict κ ν) (k : κ) (v : ν) (cost : κ × ν → Nat) :
    ((d.set k v).items.map cost).sum ≤ (d.items.map cost).sum + cost (k, v) := by
  unfold set
  split
  · exact sum_replaced_le d.nodup k v cost
  · simp

theorem size_pop_of_absent {d : Dict κ ν} {k : κ} (absent : k ∉ d.keys) : (d.pop k).size = d.size := by
  have kept : d.items.filter (fun item => item.1 != k) = d.items := by
    refine List.filter_eq_self.mpr fun item member => bne_iff_ne.mpr fun same => absent ?_
    exact same ▸ List.mem_map_of_mem member
  exact congrArg List.length kept

theorem size_pop_of_mem {d : Dict κ ν} {k : κ} (present : k ∈ d.keys) :
    (d.pop k).size + 1 = d.size := by
  have count : (d.keys.filter (· == k)).length = 1 := by
    rw [← List.count_eq_length_filter]
    exact List.count_eq_one_of_mem d.nodup present
  have split := List.length_eq_length_filter_add (l := d.keys) (· == k)
  have others : (d.pop k).size = (d.keys.filter (fun j => !(j == k))).length := by
    simp [pop, filter, size, keys, List.filter_map, Function.comp_def, bne]
  have total : d.keys.length = d.size := by simp [keys, size]
  omega

theorem size_moveToEnd (d : Dict κ ν) (k : κ) : (d.moveToEnd k).size = d.size := by
  unfold moveToEnd
  split
  · rfl
  · rename_i v found
    have absent : k ∉ (d.pop k).keys := get?_eq_none.mp (by simp)
    rw [size_set_of_absent absent, size_pop_of_mem (keys_of_get? found)]

end Dict
