import Pytitect.Wire.Canonical
import Mathlib.Algebra.Order.BigOperators.Group.List
import Mathlib.Algebra.Order.Ring.Nat

namespace Pytitect.Wire.ExactTree

section
variable {found : Dict Text ExactTree} {members : List (Text × ExactTree)}

theorem mem_denoteMembers {member : Text × ExactTree} (kept : member ∈ (denoteMembers found members).items) :
    member ∈ found.items ∨ ∃ source ∈ members, member = (source.1, source.2.denote) := by
  induction members generalizing found with
  | nil => exact Or.inl kept
  | cons source rest ih =>
    obtain ⟨key, value⟩ := source
    rcases ih kept with assigned | ⟨later, inRest, same⟩
    · obtain ⟨name, tree⟩ := member
      rcases Dict.get?_set_cases (Dict.mem_items.mp assigned) with ⟨rfl, rfl⟩ | ⟨-, old⟩
      · exact Or.inr ⟨(name, value), by simp, rfl⟩
      · exact Or.inl (Dict.mem_items.mpr old)
    · exact Or.inr ⟨later, List.mem_cons_of_mem _ inRest, same⟩

/-- Of equal members only one is paid for. -/
theorem sum_denoteMembers_le (found : Dict Text ExactTree) (cost : Text × ExactTree → Nat)
    {given : Text × ExactTree → Nat}
    (less : ∀ member ∈ members, cost (member.1, member.2.denote) ≤ given member) :
    ((denoteMembers found members).items.map cost).sum ≤ (found.items.map cost).sum + (members.map given).sum := by
  induction members generalizing found with
  | nil => exact Nat.le_add_right _ _
  | cons source rest ih =>
    obtain ⟨key, value⟩ := source
    rw [List.forall_mem_cons] at less
    have later := ih (found.set key value.denote) less.2
    have assigned := found.sum_set_le key value.denote cost
    have first : cost (key, value.denote) ≤ given (key, value) := less.1
    rw [denoteMembers, List.map_cons, List.sum_cons]
    omega

/-- Distinct members are all kept, in their order. -/
theorem denoteMembers_distinct (found : Dict Text ExactTree) (distinct : (found.keys ++ members.map Prod.fst).Nodup)
    (same : ∀ member ∈ members, member.2.denote = member.2) :
    (denoteMembers found members).items = found.items ++ members := by
  induction members generalizing found with
  | nil => exact (List.append_nil _).symm
  | cons source rest ih =>
    obtain ⟨key, value⟩ := source
    rw [List.forall_mem_cons] at same
    have absent : key ∉ found.keys := by
      intro present
      have apart := (List.nodup_append.mp distinct).2.2
      exact apart key present key (by simp) rfl
    have assigned := Dict.items_set_of_absent (v := value.denote) absent
    have keys := Dict.keys_set_of_absent (v := value.denote) absent
    have next : ((found.set key value.denote).keys ++ rest.map Prod.fst).Nodup := by
      rw [keys, List.append_assoc]
      exact distinct
    rw [denoteMembers, ih _ next same.2, assigned, same.1, List.append_assoc]
    rfl

end

theorem denote_of_proper {tree : ExactTree} (proper : tree.Proper) : tree.denote = tree := by
  induction tree using induct with
  | null => rfl
  | bool value => rfl
  | number value => rfl
  | str value => rfl
  | array values ih =>
    rw [Proper, properAll_iff] at proper
    rw [denote, denoteAll_eq]
    have same : values.map denote = values.map id := List.map_congr_left fun value member => ih value member (proper value member)
    rw [same, List.map_id]
  | object members ih =>
    rw [Proper, properMembers_iff] at proper
    have same : ∀ member ∈ members, member.2.denote = member.2 := fun member found => ih member found (proper.2 member found)
    rw [denote, denoteMembers_distinct .empty proper.1 same]
    rfl

theorem proper_denote (tree : ExactTree) : tree.denote.Proper := by
  induction tree using induct with
  | null => trivial
  | bool value => trivial
  | number value => trivial
  | str value => trivial
  | array values ih =>
    rw [denote, Proper, properAll_iff, denoteAll_eq, List.forall_mem_map]
    exact ih
  | object members ih =>
    rw [denote, Proper, properMembers_iff]
    refine ⟨(denoteMembers .empty members).nodup, fun member kept => ?_⟩
    rcases mem_denoteMembers kept with nothing | ⟨source, found, rfl⟩
    · cases nothing
    · exact ih source found

theorem items_denote_le (tree : ExactTree) : tree.denote.items ≤ tree.items := by
  induction tree using induct with
  | null => exact le_rfl
  | bool value => exact le_rfl
  | number value => exact le_rfl
  | str value => exact le_rfl
  | array values ih =>
    rw [denote, items, items, denoteAll_eq, itemsAll_eq, itemsAll_eq, List.map_map]
    have less := List.sum_le_sum ih
    exact Nat.add_le_add_left less 1
  | object members ih =>
    rw [denote, items, items, itemsMembers_eq, itemsMembers_eq]
    have less := sum_denoteMembers_le .empty (fun member => member.2.items) ih
    rw [Dict.empty, List.map_nil, List.sum_nil, Nat.zero_add] at less
    exact Nat.add_le_add_left less 1

theorem depth_denote {tree : ExactTree} {bound : Nat} (within : tree.depth ≤ bound) : tree.denote.depth ≤ bound := by
  induction tree using induct generalizing bound with
  | null => exact within
  | bool value => exact within
  | number value => exact within
  | str value => exact within
  | array values ih =>
    rw [depth, depthAll_le] at within
    rw [denote, depth, depthAll_le, denoteAll_eq, List.forall_mem_map]
    intro value member
    have below := within value member
    have deep := ih value member (by omega : value.depth ≤ bound - 1)
    omega
  | object members ih =>
    rw [depth, depthMembers_le] at within
    rw [denote, depth, depthMembers_le]
    intro member kept
    rcases mem_denoteMembers kept with nothing | ⟨source, found, rfl⟩
    · cases nothing
    · have below := within source found
      have deep := ih source found (by omega : source.2.depth ≤ bound - 1)
      dsimp only
      omega

theorem strings_denote {test : Text → Prop} {tree : ExactTree} (passed : tree.Strings test) : tree.denote.Strings test := by
  induction tree using induct with
  | null => exact passed
  | bool value => exact passed
  | number value => exact passed
  | str value => exact passed
  | array values ih =>
    rw [Strings, stringsAll_iff] at passed
    rw [denote, Strings, stringsAll_iff, denoteAll_eq, List.forall_mem_map]
    intro value member
    exact ih value member (passed value member)
  | object members ih =>
    rw [Strings, stringsMembers_iff] at passed
    rw [denote, Strings, stringsMembers_iff]
    intro member kept
    rcases mem_denoteMembers kept with nothing | ⟨source, found, rfl⟩
    · cases nothing
    · exact ⟨(passed source found).1, ih source found (passed source found).2⟩

end Pytitect.Wire.ExactTree
