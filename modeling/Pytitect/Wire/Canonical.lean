import Pytitect.Wire.Value

namespace Pytitect.Wire

theorem precedes_total (first second : Text) : precedes first second = true ∨ precedes second first = true := by
  induction first generalizing second with
  | nil => exact Or.inl rfl
  | cons a first ih =>
    cases second with
    | nil => exact Or.inr rfl
    | cons b second =>
      simp only [precedes, Bool.or_eq_true, Bool.and_eq_true, decide_eq_true_iff]
      rcases Nat.lt_trichotomy a.val b.val with less | equal | more
      · exact Or.inl (Or.inl less)
      · have same : a = b := Fin.ext equal
        rcases ih second with before | after
        · exact Or.inl (Or.inr ⟨same, before⟩)
        · exact Or.inr (Or.inr ⟨same.symm, after⟩)
      · exact Or.inr (Or.inl more)

theorem precedes_trans {first second third : Text} (before : precedes first second = true)
    (after : precedes second third = true) : precedes first third = true := by
  induction first generalizing second third with
  | nil => rfl
  | cons a first ih =>
    cases second with
    | nil => cases before
    | cons b second =>
      cases third with
      | nil => cases after
      | cons c third =>
        simp only [precedes, Bool.or_eq_true, Bool.and_eq_true, decide_eq_true_iff] at before after ⊢
        rcases before with less | ⟨rfl, before⟩
        · rcases after with less' | ⟨rfl, -⟩
          · exact Or.inl (less.trans less')
          · exact Or.inl less
        · rcases after with less' | ⟨rfl, after⟩
          · exact Or.inl less'
          · exact Or.inr ⟨rfl, ih before after⟩

theorem precedes_antisymm {first second : Text} (before : precedes first second = true)
    (after : precedes second first = true) : first = second := by
  induction first generalizing second with
  | nil =>
    cases second with
    | nil => rfl
    | cons b second => cases after
  | cons a first ih =>
    cases second with
    | nil => cases before
    | cons b second =>
      simp only [precedes, Bool.or_eq_true, Bool.and_eq_true, decide_eq_true_iff] at before after
      rcases before with less | ⟨rfl, before⟩
      · rcases after with less' | ⟨rfl, -⟩
        · omega
        · omega
      · rcases after with less' | ⟨-, after⟩
        · omega
        · rw [ih before after]

section
variable {β γ : Type} {members : List (Text × β)}

theorem arranged_perm : (arranged members).Perm members := List.perm_insertionSort _ _

theorem mem_arranged {member : Text × β} : member ∈ arranged members ↔ member ∈ members := arranged_perm.mem_iff

theorem length_arranged : (arranged members).length = members.length := arranged_perm.length_eq

theorem arranged_distinct : ((arranged members).map Prod.fst).Nodup ↔ (members.map Prod.fst).Nodup :=
  (arranged_perm.map Prod.fst).nodup_iff

/-- The order depends on the keys alone. -/
theorem arranged_map (f : β → γ) :
    arranged (members.map fun member => (member.1, f member.2)) =
      (arranged members).map fun member => (member.1, f member.2) := by
  unfold arranged
  rw [List.map_insertionSort _ fun first second : Text × γ => precedes first.1 second.1 = true]
  intro first _ second _
  exact Iff.rfl

theorem arranged_sorted : (arranged members).Pairwise fun first second => precedes first.1 second.1 = true := by
  have total : Std.Total fun first second : Text × β => precedes first.1 second.1 = true :=
    ⟨fun first second => precedes_total first.1 second.1⟩
  have trans : IsTrans (Text × β) fun first second => precedes first.1 second.1 = true :=
    ⟨fun _ _ _ before after => precedes_trans before after⟩
  exact List.pairwise_insertionSort _ _

/-- Distinct keys have one order. -/
theorem arranged_of_perm {others : List (Text × β)} (distinct : (members.map Prod.fst).Nodup) (same : members.Perm others) :
    arranged members = arranged others := by
  refine List.Perm.eq_of_pairwise (fun first second found found' before after => ?_) arranged_sorted arranged_sorted
    (arranged_perm.trans (same.trans arranged_perm.symm))
  have there := mem_arranged.mp found
  have there' := same.mem_iff.mpr (mem_arranged.mp found')
  exact List.inj_on_of_nodup_map distinct there there' (precedes_antisymm before after)

end

namespace ExactTree

section
variable {members : List (Text × ExactTree)}

theorem canonical_object : (object members).canonical =
    .object ((arranged members).map fun member => (member.1, member.2.canonical)) := by
  rw [canonical, canonicalMembers_eq, arranged_map]

theorem mem_canonical {member : Text × ExactTree} :
    member ∈ (arranged members).map (fun member => (member.1, member.2.canonical)) ↔
      ∃ source ∈ members, (source.1, source.2.canonical) = member := by
  simp only [List.mem_map, mem_arranged]

/-- Objects have one canonical form when their members have, in whatever order. -/
theorem canonical_object_iff {others : List (Text × ExactTree)} (distinct : (members.map Prod.fst).Nodup) :
    (object members).canonical = (object others).canonical ↔
      (members.map fun member => (member.1, member.2.canonical)).Perm (others.map fun member => (member.1, member.2.canonical)) := by
  have keys : ((members.map fun member => (member.1, member.2.canonical)).map Prod.fst).Nodup := by
    rw [List.map_map]
    exact distinct
  rw [canonical_object, canonical_object, ExactTree.object.injEq, ← arranged_map, ← arranged_map]
  constructor
  · intro same
    exact (arranged_perm.symm.trans (List.Perm.of_eq same)).trans arranged_perm
  · exact arranged_of_perm keys

theorem canonical_distinct :
    (((arranged members).map fun member => (member.1, member.2.canonical)).map Prod.fst).Nodup ↔
      (members.map Prod.fst).Nodup := by
  rw [List.map_map]
  exact arranged_distinct

end

theorem proper_canonical {tree : ExactTree} (proper : tree.Proper) : tree.canonical.Proper := by
  induction tree using induct with
  | null => exact proper
  | bool value => exact proper
  | number value => exact proper
  | str value => exact proper
  | array values ih =>
    rw [Proper, properAll_iff] at proper
    rw [canonical, Proper, properAll_iff, canonicalAll_eq, List.forall_mem_map]
    intro value member
    exact ih value member (proper value member)
  | object members ih =>
    rw [Proper, properMembers_iff] at proper
    rw [canonical_object, Proper, properMembers_iff, canonical_distinct]
    refine ⟨proper.1, fun member found => ?_⟩
    obtain ⟨source, member, rfl⟩ := mem_canonical.mp found
    exact ih source member (proper.2 source member)

theorem items_canonical (tree : ExactTree) : tree.canonical.items = tree.items := by
  induction tree using induct with
  | null => rfl
  | bool value => rfl
  | number value => rfl
  | str value => rfl
  | array values ih =>
    rw [canonical, items, items, itemsAll_eq, itemsAll_eq, canonicalAll_eq, List.map_map]
    exact congrArg (1 + List.sum ·) (List.map_congr_left ih)
  | object members ih =>
    rw [canonical_object, items, items, itemsMembers_eq, itemsMembers_eq, List.map_map]
    have permuted : ((arranged members).map fun member => member.2.items).Perm _ := arranged_perm.map _
    rw [← permuted.sum_nat]
    refine congrArg (1 + List.sum ·) (List.map_congr_left fun member found => ?_)
    exact ih member (mem_arranged.mp found)

theorem depth_canonical (tree : ExactTree) : tree.canonical.depth = tree.depth := by
  induction tree using induct with
  | null => rfl
  | bool value => rfl
  | number value => rfl
  | str value => rfl
  | array values ih =>
    refine eq_of_forall_ge_iff fun bound => ?_
    rw [canonical, depth, depth, depthAll_le, depthAll_le, canonicalAll_eq, List.forall_mem_map]
    exact forall₂_congr fun value member => by rw [ih value member]
  | object members ih =>
    refine eq_of_forall_ge_iff fun bound => ?_
    rw [canonical_object, depth, depth, depthMembers_le, depthMembers_le, List.forall_mem_map]
    constructor
    · intro below member found
      have inner := below member (mem_arranged.mpr found)
      dsimp only at inner
      rwa [ih member found] at inner
    · intro below member found
      have there := mem_arranged.mp found
      dsimp only
      rw [ih member there]
      exact below member there

theorem strings_canonical {test : Text → Prop} {tree : ExactTree} : tree.canonical.Strings test ↔ tree.Strings test := by
  induction tree using induct with
  | null => exact Iff.rfl
  | bool value => exact Iff.rfl
  | number value => exact Iff.rfl
  | str value => exact Iff.rfl
  | array values ih =>
    rw [canonical, Strings, Strings, stringsAll_iff, stringsAll_iff, canonicalAll_eq, List.forall_mem_map]
    exact forall₂_congr ih
  | object members ih =>
    rw [canonical_object, Strings, Strings, stringsMembers_iff, stringsMembers_iff, List.forall_mem_map]
    constructor
    · intro passed member found
      have inner := passed member (mem_arranged.mpr found)
      exact ⟨inner.1, (ih member found).mp inner.2⟩
    · intro passed member found
      have there := mem_arranged.mp found
      exact ⟨(passed member there).1, (ih member there).mpr (passed member there).2⟩

section
variable {first second : List (Text × ExactTree)}

theorem find_member (distinct : (second.map Prod.fst).Nodup) {member : Text × ExactTree} (found : member ∈ second) :
    second.find? (fun other => other.1 = member.1) = some member := by
  induction second with
  | nil => cases found
  | cons head rest ih =>
    rw [List.map_cons, List.nodup_cons] at distinct
    rcases List.mem_cons.mp found with rfl | later
    · rw [List.find?_cons_of_pos (by simp)]
    · have other : head.1 ≠ member.1 := fun same => distinct.1 (same ▸ List.mem_map_of_mem later)
      rw [List.find?_cons_of_neg (by simp [other])]
      exact ih distinct.2 later

theorem equalMembers_of (distinct : (second.map Prod.fst).Nodup)
    (each : ∀ member ∈ first, ∃ other, (member.1, other) ∈ second ∧ member.2.equal other = true) :
    equalMembers first second = true := by
  induction first with
  | nil => rfl
  | cons member rest ih =>
    obtain ⟨key, value⟩ := member
    obtain ⟨other, found, same⟩ := each (key, value) (by simp)
    have later := ih fun member inRest => each member (List.mem_cons_of_mem _ inRest)
    rw [equalMembers, later, find_member distinct found]
    simpa using same

end

/-- A value is equal to its canonical form. -/
theorem equal_canonical {tree : ExactTree} (proper : tree.Proper) : tree.equal tree.canonical = true := by
  induction tree using induct with
  | null => rfl
  | bool value => simp [canonical, equal]
  | number value => simp [canonical, equal]
  | str value => simp [canonical, equal]
  | array values ih =>
    rw [Proper, properAll_iff] at proper
    rw [canonical, equal, canonicalAll_eq]
    induction values with
    | nil => rfl
    | cons value rest ihRest =>
      rw [List.forall_mem_cons] at ih proper
      rw [List.map_cons, equalAll, ih.1 proper.1, ihRest ih.2 proper.2]
      rfl
  | object members ih =>
    rw [Proper, properMembers_iff] at proper
    rw [canonical_object, equal, List.length_map, length_arranged, decide_eq_true rfl, Bool.true_and]
    refine equalMembers_of (canonical_distinct.mpr proper.1) fun member found => ?_
    exact ⟨_, mem_canonical.mpr ⟨member, found, rfl⟩, ih member found (proper.2 member found)⟩

/-- Values with one canonical form are equal. -/
theorem equal_of_canonical {tree other : ExactTree} (proper : other.Proper) (same : tree.canonical = other.canonical) :
    tree.equal other = true := by
  induction tree using induct generalizing other with
  | null => cases other <;> simp_all [canonical, equal]
  | bool value => cases other <;> simp_all [canonical, equal]
  | number value => cases other <;> simp_all [canonical, equal]
  | str value => cases other <;> simp_all [canonical, equal]
  | array values ih =>
    cases other with
    | array others =>
      simp only [canonical, canonicalAll_eq, ExactTree.array.injEq] at same
      rw [Proper, properAll_iff] at proper
      rw [equal]
      induction values generalizing others with
      | nil =>
        cases others with
        | nil => rfl
        | cons value rest => cases same
      | cons value rest ihRest =>
        cases others with
        | nil => cases same
        | cons other later =>
          rw [List.map_cons, List.map_cons, List.cons.injEq] at same
          rw [List.forall_mem_cons] at ih proper
          rw [equalAll, ih.1 proper.1 same.1, ihRest ih.2 later proper.2 same.2]
          rfl
    | _ => simp [canonical] at same
  | object members ih =>
    cases other with
    | object others =>
      rw [canonical_object, canonical_object, ExactTree.object.injEq] at same
      rw [Proper, properMembers_iff] at proper
      have sizes := congrArg List.length same
      rw [List.length_map, List.length_map, length_arranged, length_arranged] at sizes
      rw [equal, sizes, decide_eq_true rfl, Bool.true_and]
      refine equalMembers_of proper.1 fun member found => ?_
      have image := mem_canonical.mpr ⟨member, found, rfl⟩
      rw [same] at image
      obtain ⟨⟨key, value⟩, there, image⟩ := mem_canonical.mp image
      rw [Prod.mk.injEq] at image
      obtain ⟨rfl, agree⟩ := image
      exact ⟨value, there, ih member found (proper.2 _ there) agree.symm⟩
    | _ => simp [canonical] at same

end ExactTree

end Pytitect.Wire
