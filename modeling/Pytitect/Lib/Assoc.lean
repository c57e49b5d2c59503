import Mathlib.Data.List.Perm.Basic
import Mathlib.Data.List.Nodup
import Mathlib.Tactic.Common

/-! Lists of entries with a key, no key twice. They are equal up to their order exactly when
every key is looked up alike. -/

namespace Assoc
variable {κ ν μ : Type} [BEq κ] {entries others : List (κ × ν)} {key : κ} {value : ν}

theorem lookup_map (f : ν → μ) (key : κ) :
    (entries.map fun entry => (entry.1, f entry.2)).lookup key = (entries.lookup key).map f := by
  induction entries with
  | nil => rfl
  | cons entry rest ih =>
    obtain ⟨name, first⟩ := entry
    rw [List.map_cons, List.lookup_cons, List.lookup_cons, ih]
    cases key == name with
    | true => rfl
    | false => rfl

variable [LawfulBEq κ]

theorem mem_of_lookup (found : entries.lookup key = some value) : (key, value) ∈ entries := by
  induction entries with
  | nil => cases found
  | cons entry rest ih =>
    obtain ⟨name, first⟩ := entry
    rw [List.lookup_cons] at found
    by_cases same : key = name
    · rw [same, beq_self_eq_true] at found
      rw [same, ← Option.some.inj found]
      exact List.mem_cons_self
    · rw [beq_false_of_ne same] at found
      exact List.mem_cons_of_mem _ (ih found)

theorem lookup_of_mem (distinct : (entries.map Prod.fst).Nodup) (member : (key, value) ∈ entries) :
    entries.lookup key = some value := by
  induction entries with
  | nil => cases member
  | cons entry rest ih =>
    obtain ⟨name, first⟩ := entry
    rw [List.map_cons, List.nodup_cons] at distinct
    rw [List.lookup_cons]
    rcases List.mem_cons.mp member with same | later
    · obtain ⟨rfl, rfl⟩ := Prod.mk.inj same
      rw [beq_self_eq_true]
    · have apart : key ≠ name := by
        rintro rfl
        exact distinct.1 (List.mem_map.mpr ⟨(key, value), later, rfl⟩)
      rw [beq_false_of_ne apart]
      exact ih distinct.2 later

theorem lookup_iff (distinct : (entries.map Prod.fst).Nodup) : entries.lookup key = some value ↔ (key, value) ∈ entries :=
  ⟨mem_of_lookup, lookup_of_mem distinct⟩

theorem lookup_eq_none : entries.lookup key = none ↔ key ∉ entries.map Prod.fst := by
  induction entries with
  | nil => simp
  | cons entry rest ih =>
    obtain ⟨name, first⟩ := entry
    rw [List.lookup_cons, List.map_cons, List.mem_cons, not_or, ← ih]
    by_cases same : key = name
    · rw [same, beq_self_eq_true]
      simp
    · rw [beq_false_of_ne same]
      exact (and_iff_right same).symm

theorem lookup_perm (distinct : (entries.map Prod.fst).Nodup) (same : entries.Perm others) (key : κ) :
    entries.lookup key = others.lookup key := by
  have distinct' : (others.map Prod.fst).Nodup := (same.map Prod.fst).nodup_iff.mp distinct
  cases found : others.lookup key with
  | none =>
    rw [lookup_eq_none] at found ⊢
    exact fun member => found ((same.map Prod.fst).mem_iff.mp member)
  | some value =>
    rw [lookup_iff distinct'] at found
    exact lookup_of_mem distinct (same.mem_iff.mpr found)

theorem perm_of_lookup (distinct : (entries.map Prod.fst).Nodup) (distinct' : (others.map Prod.fst).Nodup)
    (same : ∀ key, entries.lookup key = others.lookup key) : entries.Perm others := by
  have each : ∀ entry : κ × ν, entry ∈ entries ↔ entry ∈ others := by
    rintro ⟨key, value⟩
    rw [← lookup_iff distinct, ← lookup_iff distinct', same]
  exact (List.perm_ext_iff_of_nodup (distinct.of_map _) (distinct'.of_map _)).mpr each

theorem lookup_filter (keep : κ → Bool) (kept : keep key = true) :
    (entries.filter fun entry => keep entry.1).lookup key = entries.lookup key := by
  induction entries with
  | nil => rfl
  | cons entry rest ih =>
    obtain ⟨name, first⟩ := entry
    rw [List.filter_cons, List.lookup_cons]
    by_cases same : key = name
    · rw [← same, if_pos kept, List.lookup_cons, beq_self_eq_true]
    · rw [beq_false_of_ne same]
      split
      · rw [List.lookup_cons, beq_false_of_ne same]
        exact ih
      · exact ih

end Assoc
