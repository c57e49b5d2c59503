import Pytitect.Contracts.Expansion

namespace Pytitect
open Relation

namespace ResolverEnvironment
variable {φ : Type} {env : ResolverEnvironment φ} {file : φ} {next : φ × JsonValue}

theorem refers_scalar {value : JsonValue} (noList : ∀ items, value = .list items → False) (noDict : ∀ members, value = .dict members → False) :
    ¬env.Refers (file, value) next := by
  rintro ⟨reference, mentions, -⟩
  cases mentions with
  | here => exact noDict _ rfl
  | item => exact noList _ rfl
  | member => exact noDict _ rfl

theorem refers_list {items : List JsonValue} : env.Refers (file, .list items) next ↔ ∃ item ∈ items, env.Refers (file, item) next := by
  constructor
  · rintro ⟨reference, mentions, leads⟩
    cases mentions with
    | item member mentions => exact ⟨_, member, reference, mentions, leads⟩
  · rintro ⟨item, member, reference, mentions, leads⟩
    exact ⟨reference, .item member mentions, leads⟩

theorem refers_object {members : List (Text × JsonValue)} (plain : JsonValue.reference members = none) :
    env.Refers (file, .dict members) next ↔ ∃ member ∈ members, env.Refers (file, member.2) next := by
  constructor
  · rintro ⟨reference, mentions, leads⟩
    cases mentions with
    | here found =>
      rw [plain] at found
      cases found
    | member member _ mentions => exact ⟨_, member, reference, mentions, leads⟩
  · rintro ⟨⟨key, child⟩, member, reference, mentions, leads⟩
    exact ⟨reference, .member member (Or.inr plain) mentions, leads⟩

theorem mem_siblings {members : List (Text × JsonValue)} {member : Text × JsonValue} :
    member ∈ JsonValue.siblings members ↔ member ∈ members ∧ member.1 ≠ "$ref".codePoints := by
  rw [JsonValue.siblings, List.mem_filter, decide_eq_true_eq]

theorem lookup_siblings (members : List (Text × JsonValue)) : (JsonValue.siblings members).lookup "$ref".codePoints = none := by
  rw [List.lookup_eq_none_iff]
  intro member inside
  exact bne_iff_ne.mpr (Ne.symm (mem_siblings.mp inside).2)

theorem reference_siblings (members : List (Text × JsonValue)) : JsonValue.reference (JsonValue.siblings members) = none := by
  rw [JsonValue.reference, lookup_siblings]

theorem refers_reference {members : List (Text × JsonValue)} {reference : Text} (isReference : JsonValue.reference members = some reference) :
    env.Refers (file, .dict members) next ↔ env.Leads file reference next ∨ env.Refers (file, .dict (JsonValue.siblings members)) next := by
  constructor
  · rintro ⟨other, mentions, leads⟩
    cases mentions with
    | here found =>
      rw [isReference] at found
      cases found
      exact Or.inl leads
    | member member beside mentions =>
      rw [isReference] at beside
      have sibling := mem_siblings.mpr ⟨member, beside.resolve_right (by simp)⟩
      exact Or.inr ⟨other, .member sibling (Or.inr (reference_siblings members)) mentions, leads⟩
  · rintro (leads | refers)
    · exact ⟨reference, .here isReference, leads⟩
    · obtain ⟨⟨key, child⟩, sibling, other, mentions, leads⟩ := (refers_object (reference_siblings members)).mp refers
      obtain ⟨member, beside⟩ := mem_siblings.mp sibling
      exact ⟨other, .member member (Or.inl beside) mentions, leads⟩

mutual

/-- Where an expansion has come to its end so have all references. -/
theorem Expands.acc {value result : JsonValue} {file : φ} {files : List φ} {depth : Nat} :
    env.Expands file value result files depth → Acc (fun next location => env.Refers location next) (file, value)
  | .scalar noList noDict => .intro _ fun _ refers => (refers_scalar noList noDict refers).elim
  | .list expands => .intro _ fun _ refers => by
    obtain ⟨item, member, refers⟩ := refers_list.mp refers
    exact (expands.acc item member).inv refers
  | .object plain expands => .intro _ fun _ refers => by
    obtain ⟨member, inside, refers⟩ := (refers_object plain).mp refers
    exact (expands.acc member inside).inv refers
  | .reference isReference leads expands alone => .intro _ fun next refers => by
    rcases (refers_reference isReference).mp refers with leadsToo | refers
    · rw [← leads.unique leadsToo]
      exact expands.acc
    · obtain ⟨member, inside, -⟩ := (refers_object (reference_siblings _)).mp refers
      rw [alone] at inside
      cases inside
  | .beside isReference leads expands _ siblings => .intro _ fun next refers => by
    rcases (refers_reference isReference).mp refers with leadsToo | refers
    · rw [← leads.unique leadsToo]
      exact expands.acc
    · exact siblings.acc.inv refers

theorem ExpandsItems.acc {items results : List JsonValue} {file : φ} {files : List φ} {depth : Nat} :
    env.ExpandsItems file items results files depth → ∀ item ∈ items, Acc (fun next location => env.Refers location next) (file, item)
  | .nil => fun _ member => (nomatch member)
  | .cons first rest => List.forall_mem_cons.mpr ⟨first.acc, rest.acc⟩

theorem ExpandsMembers.acc {members results : List (Text × JsonValue)} {file : φ} {files : List φ} {depth : Nat} :
    env.ExpandsMembers file members results files depth → ∀ member ∈ members, Acc (fun next location => env.Refers location next) (file, member.2)
  | .nil => fun _ member => (nomatch member)
  | .cons first rest => List.forall_mem_cons.mpr ⟨first.acc, rest.acc⟩

end

mutual

/-- There is one full expansion. -/
theorem Expands.unique {value result other : JsonValue} {file : φ} {files others : List φ} {depth otherDepth : Nat} :
    env.Expands file value result files depth → env.Expands file value other others otherDepth →
      result = other ∧ files = others ∧ depth = otherDepth
  | .scalar noList noDict => fun again => by
    cases again with
    | scalar => exact ⟨rfl, rfl, rfl⟩
    | list => exact (noList _ rfl).elim
    | object => exact (noDict _ rfl).elim
    | reference => exact (noDict _ rfl).elim
    | beside => exact (noDict _ rfl).elim
  | .list expands => fun again => by
    cases again with
    | scalar noList => exact (noList _ rfl).elim
    | list expandsToo =>
      obtain ⟨rfl, rfl, rfl⟩ := expands.unique expandsToo
      exact ⟨rfl, rfl, rfl⟩
  | .object plain expands => fun again => by
    cases again with
    | scalar _ noDict => exact (noDict _ rfl).elim
    | object _ expandsToo =>
      obtain ⟨rfl, rfl, rfl⟩ := expands.unique expandsToo
      exact ⟨rfl, rfl, rfl⟩
    | reference found => cases plain.symm.trans found
    | beside found => cases plain.symm.trans found
  | .reference isReference leads expands alone => fun again => by
    cases again with
    | scalar _ noDict => exact (noDict _ rfl).elim
    | object plain => cases plain.symm.trans isReference
    | reference found leadsToo expandsToo =>
      cases isReference.symm.trans found
      cases leads.unique leadsToo
      obtain ⟨rfl, rfl, rfl⟩ := expands.unique expandsToo
      exact ⟨rfl, rfl, rfl⟩
    | beside _ _ _ more => exact absurd alone more
  | .beside isReference leads expands more siblings => fun again => by
    cases again with
    | scalar _ noDict => exact (noDict _ rfl).elim
    | object plain => cases plain.symm.trans isReference
    | reference _ _ _ alone => exact absurd alone more
    | beside found leadsToo expandsToo _ siblingsToo =>
      cases isReference.symm.trans found
      cases leads.unique leadsToo
      obtain ⟨rfl, rfl, rfl⟩ := expands.unique expandsToo
      obtain ⟨rfl, rfl, rfl⟩ := siblings.unique siblingsToo
      exact ⟨rfl, rfl, rfl⟩

theorem ExpandsItems.unique {items results others : List JsonValue} {file : φ} {files otherFiles : List φ} {depth otherDepth : Nat} :
    env.ExpandsItems file items results files depth → env.ExpandsItems file items others otherFiles otherDepth →
      results = others ∧ files = otherFiles ∧ depth = otherDepth
  | .nil => fun again => by
    cases again
    exact ⟨rfl, rfl, rfl⟩
  | .cons first rest => fun again => by
    cases again with
    | cons firstToo restToo =>
      obtain ⟨rfl, rfl, rfl⟩ := first.unique firstToo
      obtain ⟨rfl, rfl, rfl⟩ := rest.unique restToo
      exact ⟨rfl, rfl, rfl⟩

theorem ExpandsMembers.unique {members results others : List (Text × JsonValue)} {file : φ} {files otherFiles : List φ}
    {depth otherDepth : Nat} : env.ExpandsMembers file members results files depth →
      env.ExpandsMembers file members others otherFiles otherDepth → results = others ∧ files = otherFiles ∧ depth = otherDepth
  | .nil => fun again => by
    cases again
    exact ⟨rfl, rfl, rfl⟩
  | .cons first rest => fun again => by
    cases again with
    | cons firstToo restToo =>
      obtain ⟨rfl, rfl, rfl⟩ := first.unique firstToo
      obtain ⟨rfl, rfl, rfl⟩ := rest.unique restToo
      exact ⟨rfl, rfl, rfl⟩

end

/-- The value holds an object whose `$ref` is no string, but expands to one. -/
inductive Disguised (env : ResolverEnvironment φ) (file : φ) : JsonValue → Prop
  | here {members : List (Text × JsonValue)} {child : JsonValue} {reference : Text} {files : List φ} {depth : Nat} :
      JsonValue.reference members = none → members.lookup "$ref".codePoints = some child →
      env.Expands file child (.str reference) files depth → Disguised env file (.dict members)
  | item {child : JsonValue} {items : List JsonValue} : child ∈ items → Disguised env file child → Disguised env file (.list items)
  | member {key : Text} {child : JsonValue} {members : List (Text × JsonValue)} : (key, child) ∈ members →
      key ≠ "$ref".codePoints ∨ JsonValue.reference members = none → Disguised env file child → Disguised env file (.dict members)

/-- A value with such an object is in reach along the references. -/
def DisguisedInReach (env : ResolverEnvironment φ) (file : φ) (value : JsonValue) : Prop :=
  ∃ location, ReflTransGen env.Refers (file, value) location ∧ env.Disguised location.1 location.2

theorem DisguisedInReach.of_part {part whole : JsonValue} (sameReferences : ∀ next, env.Refers (file, part) next → env.Refers (file, whole) next)
    (sameObjects : env.Disguised file part → env.Disguised file whole) (inReach : env.DisguisedInReach file part) :
    env.DisguisedInReach file whole := by
  obtain ⟨location, path, disguised⟩ := inReach
  rcases ReflTransGen.cases_head path with rfl | ⟨next, step, rest⟩
  · exact ⟨(file, whole), .refl, sameObjects disguised⟩
  · exact ⟨location, .head (sameReferences next step) rest, disguised⟩

theorem DisguisedInReach.of_leads {value : JsonValue} {location : φ × JsonValue} (step : env.Refers (file, value) location)
    (inReach : env.DisguisedInReach location.1 location.2) : env.DisguisedInReach file value := by
  obtain ⟨last, path, disguised⟩ := inReach
  exact ⟨last, .head step path, disguised⟩

theorem disguised_siblings {members : List (Text × JsonValue)} (disguised : env.Disguised file (.dict (JsonValue.siblings members))) :
    env.Disguised file (.dict members) := by
  cases disguised with
  | here _ found =>
    rw [lookup_siblings] at found
    cases found
  | member sibling _ inside =>
    obtain ⟨member, beside⟩ := mem_siblings.mp sibling
    exact .member member (Or.inl beside) inside

theorem ExpandsMembers.lookup {members results : List (Text × JsonValue)} {files : List φ} {depth : Nat} {key : Text} {result : JsonValue}
    (expands : env.ExpandsMembers file members results files depth) (found : results.lookup key = some result) :
    ∃ child others nested, members.lookup key = some child ∧ env.Expands file child result others nested := by
  induction members generalizing results files depth with
  | nil =>
    cases expands
    cases found
  | cons member rest ih =>
    cases expands with
    | @cons _ name child changed _ others _ _ _ _ first remaining =>
      rw [List.lookup_cons] at found ⊢
      by_cases same : key = name
      · rw [same, beq_self_eq_true] at found ⊢
        cases found
        exact ⟨child, _, _, rfl, first⟩
      · rw [beq_false_of_ne same] at found ⊢
        exact ih remaining found

mutual

/-- Where a reference is left in the expansion, there was an object whose `$ref` expands to it. -/
theorem Expands.mentions {value result : JsonValue} {file : φ} {files : List φ} {depth : Nat} {reference : Text} :
    env.Expands file value result files depth → Mentions reference result → env.DisguisedInReach file value
  | .scalar noList noDict => fun mentions => by
    cases mentions with
    | here => exact (noDict _ rfl).elim
    | item => exact (noList _ rfl).elim
    | member => exact (noDict _ rfl).elim
  | .list expands => fun mentions => by
    cases mentions with
    | item member inside =>
      obtain ⟨item, isItem, inReach⟩ := expands.mentions member inside
      exact inReach.of_part (fun next refers => refers_list.mpr ⟨item, isItem, refers⟩) (.item isItem)
  | .object plain expands => fun mentions => by
    cases mentions with
    | here found =>
      unfold JsonValue.reference at found
      split at found
      · next isString =>
        obtain ⟨child, _, _, isChild, expandsChild⟩ := expands.lookup isString
        exact ⟨_, .refl, .here plain isChild expandsChild⟩
      · cases found
    | member member _ inside =>
      obtain ⟨⟨key, child⟩, isMember, inReach⟩ := expands.mentions member inside
      exact inReach.of_part (fun next refers => (refers_object plain).mpr ⟨_, isMember, refers⟩) (.member isMember (Or.inr plain))
  | .reference isReference leads expands alone => fun mentions =>
    (expands.mentions mentions).of_leads ((refers_reference isReference).mpr (Or.inl leads))
  | .beside isReference leads expands more siblings => fun mentions => by
    cases mentions with
    | here found => cases found
    | member member _ inside =>
      cases List.mem_singleton.mp member
      cases inside with
      | item isPart inside =>
        rcases List.mem_cons.mp isPart with isTarget | isSiblings
        · rw [isTarget] at inside
          exact (expands.mentions inside).of_leads ((refers_reference isReference).mpr (Or.inl leads))
        · rw [List.mem_singleton.mp isSiblings] at inside
          exact (siblings.mentions inside).of_part (fun next refers => (refers_reference isReference).mpr (Or.inr refers)) disguised_siblings

theorem ExpandsItems.mentions {items results : List JsonValue} {file : φ} {files : List φ} {depth : Nat} {reference : Text} :
    env.ExpandsItems file items results files depth → ∀ {result}, result ∈ results → Mentions reference result →
      ∃ item ∈ items, env.DisguisedInReach file item
  | .nil => fun member => (nomatch member)
  | .cons first rest => fun member mentions => by
    rcases List.mem_cons.mp member with same | later
    · rw [same] at mentions
      exact ⟨_, List.mem_cons_self .., first.mentions mentions⟩
    · obtain ⟨item, isItem, inReach⟩ := rest.mentions later mentions
      exact ⟨item, List.mem_cons_of_mem _ isItem, inReach⟩

theorem ExpandsMembers.mentions {members results : List (Text × JsonValue)} {file : φ} {files : List φ} {depth : Nat} {reference : Text} :
    env.ExpandsMembers file members results files depth → ∀ {result}, result ∈ results → Mentions reference result.2 →
      ∃ member ∈ members, env.DisguisedInReach file member.2
  | .nil => fun member => (nomatch member)
  | .cons first rest => fun member mentions => by
    rcases List.mem_cons.mp member with same | later
    · rw [same] at mentions
      exact ⟨_, List.mem_cons_self .., first.mentions mentions⟩
    · obtain ⟨item, isItem, inReach⟩ := rest.mentions later mentions
      exact ⟨item, List.mem_cons_of_mem _ isItem, inReach⟩

end

end ResolverEnvironment

/-- Where the first result is a value it is the second one's too, and no rejection of the first one names a cycle. -/
structure AgreesOnCycle {α : Type} (first second : Except RefRejected α) : Prop where
  value : ∀ a, first = .ok a → second = .ok a
  rejection : ∀ rejected, first = .error rejected → rejected.code ≠ "cycle"

namespace AgreesOnCycle
variable {α β : Type} {first second : Except RefRejected α}

theorem ok (a : α) : AgreesOnCycle (.ok a) (.ok a) := ⟨fun _ same => same, fun _ same => (nomatch same)⟩

theorem error {rejected : RefRejected} (plain : rejected.code ≠ "cycle") : AgreesOnCycle (.error rejected) second :=
  ⟨fun _ same => (nomatch same), fun _ same => Except.error.inj same ▸ plain⟩

theorem bind (agrees : AgreesOnCycle first second) {next other : α → Except RefRejected β} (onwards : ∀ a, AgreesOnCycle (next a) (other a)) :
    AgreesOnCycle (first >>= next) (second >>= other) := by
  cases result : first with
  | error rejected => exact error (agrees.rejection rejected result)
  | ok a =>
    rw [agrees.value a result]
    exact onwards a

theorem map (agrees : AgreesOnCycle first second) (f : α → β) : AgreesOnCycle (first.map f) (second.map f) := by
  cases result : first with
  | error rejected => exact error (agrees.rejection rejected result)
  | ok a =>
    rw [agrees.value a result]
    exact ok (f a)

end AgreesOnCycle

/-- The reference is only quoted in rejections. -/
theorem decodePointerToken_agrees (reference other token : Text) : AgreesOnCycle (decodePointerToken reference token) (decodePointerToken other token) := by
  fun_induction decodePointerToken reference token with
  | case1 => exact .ok []
  | case2 rest ih =>
    rw [decodePointerToken]
    exact ih.map _
  | case3 rest ih =>
    rw [decodePointerToken]
    exact ih.map _
  | case4 => exact .error (by simp)
  | case5 c rest notZero notOne notTilde ih =>
    rw [decodePointerToken.eq_5 _ _ _ notZero notOne notTilde]
    exact ih.map _

theorem descend_agrees (reference other : Text) (current : JsonValue) (tokens : List Text) :
    AgreesOnCycle (descend reference current tokens) (descend other current tokens) := by
  induction tokens generalizing current with
  | nil => exact .ok current
  | cons rawToken rest ih =>
    refine (decodePointerToken_agrees reference other rawToken).bind fun token => ?_
    cases current with
    | dict members =>
      dsimp only
      split
      · exact ih _
      · exact .error (by simp)
    | list items =>
      dsimp only
      split
      · exact .error (by simp)
      · split
        · exact ih _
        · exact .error (by simp)
    | null => exact .error (by simp)
    | bool => exact .error (by simp)
    | int => exact .error (by simp)
    | float => exact .error (by simp)
    | str => exact .error (by simp)

theorem followPointer_agrees (document : JsonValue) (pointer reference other : Text) :
    AgreesOnCycle (followPointer document pointer reference) (followPointer document pointer other) := by
  unfold followPointer
  split
  · exact .ok document
  · split
    · exact .error (by simp)
    · exact descend_agrees reference other document _

/-- A failure that names no cycle; an exception that is not caught comes from `urlsplit`. -/
def NoCycle {φ : Type} (env : ResolverEnvironment φ) : ResolveFailure → Prop
  | .expected rejected => rejected.code ≠ "cycle"
  | .raised error => ∃ reference, env.urlsplit reference = .error error

namespace ResolverEnvironment
variable {φ : Type} {env : ResolverEnvironment φ}

theorem parse_plain {path : φ} {payload : List UInt8} {rejected : RefRejected} (fails : env.parse path payload = .error rejected) :
    rejected.code ≠ "cycle" := by
  have agrees : AgreesOnCycle (env.parse path payload) (env.parse path payload) := by
    unfold parse
    refine AgreesOnCycle.bind ?_ fun loaded => ?_
    · unfold deserialize
      split
      · split
        · exact .ok _
        · exact .error (by simp)
      · split
        · split
          · exact .error (by simp)
          · split
            · exact .ok _
            · exact .error (by simp)
        · exact .error (by simp)
    · split
      · exact .error (by simp)
      · exact .error (by simp)
      · split
        · exact .ok _
        · exact .error (by simp)
  exact agrees.rejection rejected fails

/-- A failure of `urlsplit` comes first, and any other one after it. -/
theorem plain_of_split {α : Type} {reference : Text} {next : UrlParts → Except ResolveFailure α} {failure : ResolveFailure}
    (onwards : ∀ parsed, next parsed = .error failure → NoCycle env failure)
    (fails : ((env.urlsplit reference).mapError .raised >>= next) = .error failure) : NoCycle env failure := by
  cases parsed : env.urlsplit reference with
  | error error =>
    rw [parsed] at fails
    cases fails
    exact ⟨reference, parsed⟩
  | ok parts =>
    rw [parsed] at fails
    exact onwards parts fails

theorem safePath_plain {value : Text} {base : φ} {failure : ResolveFailure} (fails : env.safePath value base = .error failure) :
    NoCycle env failure := by
  refine plain_of_split (fun parsed fails => ?_) fails
  split at fails
  · cases fails
    simp [NoCycle]
  split at fails
  · cases fails
    simp [NoCycle]
  split at fails
  · cases fails
    simp [NoCycle]
  split at fails
  · cases fails
    simp [NoCycle]
  · cases fails

theorem target_plain {reference : Text} {file : φ} {failure : ResolveFailure} (fails : env.target reference file = .error failure) :
    NoCycle env failure := by
  refine plain_of_split (fun parsed fails => ?_) fails
  split at fails
  · cases fails
    simp [NoCycle]
  split at fails
  · cases found : env.safePath parsed.path (env.parent file) with
    | error error =>
      rw [found] at fails
      cases fails
      exact safePath_plain found
    | ok path =>
      rw [found] at fails
      cases fails
  · cases fails

end ResolverEnvironment

namespace LocalRefResolver
open Program ResolverEnvironment
variable {φ : Type} {env : ResolverEnvironment φ} {limits : ResolverLimits} {s t : ResolutionState φ}

/-- The value at the pointer of a marker. -/
def Marked (env : ResolverEnvironment φ) (marker : φ × Text) (location : φ × JsonValue) : Prop :=
  location.1 = marker.1 ∧ ∃ document reference, env.content marker.1 = .ok document ∧ followPointer document marker.2 reference = .ok location.2

/-- What a value refers to is below the root, and below every location that the stack marks. -/
def Guarded (env : ResolverEnvironment φ) (root : φ × JsonValue) (file : φ) (value : JsonValue) (stack : List (φ × Text)) : Prop :=
  (∀ next, env.Refers (file, value) next → TransGen env.Refers root next) ∧
    ∀ marker ∈ stack, ∃ location, Marked env marker location ∧ ∀ next, env.Refers (file, value) next → TransGen env.Refers location next

theorem Guarded.of_part {root : φ × JsonValue} {file : φ} {part whole : JsonValue} {stack : List (φ × Text)}
    (guarded : Guarded env root file whole stack) (sameReferences : ∀ next, env.Refers (file, part) next → env.Refers (file, whole) next) :
    Guarded env root file part stack := by
  refine ⟨fun next refers => guarded.1 next (sameReferences next refers), fun marker member => ?_⟩
  obtain ⟨location, marked, below⟩ := guarded.2 marker member
  exact ⟨location, marked, fun next refers => below next (sameReferences next refers)⟩

theorem Guarded.follow {root location : φ × JsonValue} {file : φ} {value : JsonValue} {stack : List (φ × Text)} {marker : φ × Text}
    (guarded : Guarded env root file value stack) (refers : env.Refers (file, value) location) (marked : Marked env marker location) :
    Guarded env root location.1 location.2 (stack ++ [marker]) := by
  refine ⟨fun next step => (guarded.1 location refers).tail step, fun other member => ?_⟩
  rcases List.mem_append.mp member with earlier | new
  · obtain ⟨above, isMarked, below⟩ := guarded.2 other earlier
    exact ⟨above, isMarked, fun next step => (below location refers).tail step⟩
  · rw [List.mem_singleton.mp new]
    exact ⟨location, marked, fun next step => .single step⟩

/-- A reference to a location that is being expanded closes a cycle. -/
theorem Guarded.cycle {root : φ × JsonValue} {file : φ} {value : JsonValue} {stack : List (φ × Text)} {reference : Text} {marker : φ × Text}
    (guarded : Guarded env root file value stack) (mentions : Mentions reference value) (isTarget : env.target reference file = .ok marker)
    (again : marker ∈ stack) : ReachesCycle env.Refers root := by
  obtain ⟨location, ⟨sameFile, document, other, holds, follows⟩, below⟩ := guarded.2 marker again
  have followsToo := (followPointer_agrees document marker.2 other reference).value _ follows
  have refers : env.Refers (file, value) location := by
    refine ⟨reference, mentions, marker.2, document, ?_, ?_, followsToo⟩
    · rw [isTarget, sameFile]
    · rw [sameFile, holds]
  exact ⟨location, (guarded.1 location refers).to_reflTransGen, below location refers⟩

theorem countReference_raises {reference : Text} {failure : ResolveFailure}
    (raises : (countReference limits reference : Resolving φ Unit).Raises s failure t) : NoCycle env failure := by
  unfold Raises countReference at raises
  dsimp only at raises
  split at raises
  · cases raises
    simp [NoCycle]
  · cases raises

theorem reject_raises {α : Type} {code detail : String} {reference : Option Text} {failure : ResolveFailure} (plain : code ≠ "cycle")
    (raises : (reject code detail reference : Resolving φ α).Raises s failure t) : NoCycle env failure := by
  obtain ⟨rfl, -⟩ := raises_raise.mp raises
  exact plain

variable [DecidableEq φ]

theorem load_raises {path : φ} {failure : ResolveFailure} (raises : (load env limits path).Raises s failure t) : NoCycle env failure := by
  unfold Raises load at raises
  dsimp only at raises
  split at raises
  · cases raises
  split at raises
  · cases raises
    simp [NoCycle]
  split at raises
  · next fails =>
    cases raises
    exact parse_plain fails
  · cases raises

/-- Where following a reference fails: by itself, on the stack, below its target or among the other members. -/
theorem reference_raises {members : List (Text × JsonValue)} {reference : Text} {failure : ResolveFailure} {currentFile : φ} {depth : Nat}
    {stack : List (φ × Text)} (isReference : JsonValue.reference members = some reference) (shallow : ¬limits.maxDepth < depth)
    (raises : (walk env limits (.dict members) currentFile depth stack).Raises s failure t) :
    NoCycle env failure ∨ (∃ marker rejected, env.target reference currentFile = .ok marker ∧ marker ∈ stack ∧ failure = .expected rejected) ∨
      ∃ marker document target u v, (countReference limits reference : Resolving φ Unit).Returns s () u ∧
        env.target reference currentFile = .ok marker ∧ (load env limits marker.1).Returns u document v ∧
        followPointer document marker.2 reference = .ok target ∧
        ((walk env limits target marker.1 (depth + 1) (stack ++ [marker])).Raises v failure t ∨
          ∃ resolved w, (walk env limits target marker.1 (depth + 1) (stack ++ [marker])).Returns v resolved w ∧
            (walk env limits (.dict (JsonValue.siblings members)) currentFile depth stack).Raises w failure t) := by
  rw [walk_reference shallow isReference, raises_bind] at raises
  rcases raises with fails | ⟨_, u, counts, finds⟩
  · exact Or.inl (countReference_raises fails)
  rcases raises_bind.mp finds with fails | ⟨marker, _, found, checks⟩
  · obtain ⟨fails, -⟩ := raises_lift.mp fails
    exact Or.inl (target_plain fails)
  obtain ⟨isTarget, rfl⟩ := returns_lift.mp found
  by_cases again : marker ∈ stack
  · rw [if_pos again] at checks
    exact Or.inr (Or.inl ⟨marker, _, isTarget, again, (raises_raise.mp checks).1⟩)
  rw [if_neg again] at checks
  rcases raises_bind.mp checks with fails | ⟨document, v, loads, points⟩
  · exact Or.inl (load_raises fails)
  rcases raises_bind.mp points with fails | ⟨target, _, follows, descends⟩
  · obtain ⟨fails, -⟩ := raises_lift.mp fails
    cases pointed : followPointer document marker.2 reference with
    | error rejected =>
      rw [pointed] at fails
      cases fails
      exact Or.inl ((followPointer_agrees document marker.2 reference reference).rejection rejected pointed)
    | ok value =>
      rw [pointed] at fails
      cases fails
  obtain ⟨follows, rfl⟩ := returns_lift.mp follows
  have followed : followPointer document marker.2 reference = .ok target := by
    cases pointed : followPointer document marker.2 reference with
    | error rejected =>
      rw [pointed] at follows
      cases follows
    | ok value =>
      rw [pointed] at follows
      cases follows
      rfl
  rcases raises_bind.mp descends with fails | ⟨resolved, w, walks, ends⟩
  · exact Or.inr (Or.inr ⟨marker, document, target, _, _, counts, isTarget, loads, followed, Or.inl fails⟩)
  by_cases alone : JsonValue.siblings members = []
  · rw [if_pos alone] at ends
    exact (not_raises_pure ends).elim
  rw [if_neg alone] at ends
  rcases raises_bind.mp ends with fails | ⟨walkedSiblings, x, walksSiblings, joins⟩
  · exact Or.inr (Or.inr ⟨marker, document, target, _, _, counts, isTarget, loads, followed, Or.inr ⟨resolved, w, walks, fails⟩⟩)
  split at joins
  · split at joins
    · exact Or.inl (reject_raises (by simp) joins)
    · exact (not_raises_pure joins).elim
  · exact Or.inl (reject_raises (by simp) joins)

/-- A rejection where there is a cycle below the root. -/
def Cyclic (env : ResolverEnvironment φ) (root : φ × JsonValue) (failure : ResolveFailure) : Prop :=
  (∃ rejected, failure = .expected rejected) ∧ ReachesCycle env.Refers root

/-- A walk that is refused for a cycle has found one among the references. -/
theorem walk_raises (root : φ × JsonValue) (value : JsonValue) (currentFile : φ) (depth : Nat) (stack : List (φ × Text)) :
    ∀ s t failure, Sound env s → Guarded env root currentFile value stack → (walk env limits value currentFile depth stack).Raises s failure t →
      NoCycle env failure ∨ Cyclic env root failure := by
  refine walk.induct limits
    (fun value currentFile depth stack => ∀ s t failure, Sound env s → Guarded env root currentFile value stack →
      (walk env limits value currentFile depth stack).Raises s failure t → NoCycle env failure ∨ Cyclic env root failure)
    (fun members currentFile depth stack => ∀ s t failure, Sound env s → (∀ member ∈ members, Guarded env root currentFile member.2 stack) →
      (walkMembers env limits members currentFile depth stack).Raises s failure t → NoCycle env failure ∨ Cyclic env root failure)
    (fun items currentFile depth stack => ∀ s t failure, Sound env s → (∀ item ∈ items, Guarded env root currentFile item stack) →
      (walkItems env limits items currentFile depth stack).Raises s failure t → NoCycle env failure ∨ Cyclic env root failure)
    ?deep ?list ?object ?reference ?scalar ?noMembers ?member ?noItems ?item value currentFile depth stack
  case deep =>
    intro value currentFile depth stack deep s t failure _ _ raises
    rw [walk_deep deep] at raises
    exact Or.inl (reject_raises (by simp) raises)
  case list =>
    intro currentFile depth stack shallow items ih s t failure sound guarded raises
    rw [walk_list shallow, raises_bind] at raises
    rcases raises with fails | ⟨_, _, _, ends⟩
    · exact ih s t failure sound (fun item member => guarded.of_part fun next refers => refers_list.mpr ⟨item, member, refers⟩) fails
    · exact (not_raises_pure ends).elim
  case object =>
    intro currentFile depth stack shallow members plain ih s t failure sound guarded raises
    rw [walk_object shallow plain, raises_bind] at raises
    rcases raises with fails | ⟨_, _, _, ends⟩
    · exact ih s t failure sound (fun member isMember => guarded.of_part fun next refers => (refers_object plain).mpr ⟨member, isMember, refers⟩)
        fails
    · exact (not_raises_pure ends).elim
  case reference =>
    intro currentFile depth stack shallow members reference isReference ihTarget ihSiblings s t failure sound guarded raises
    rcases reference_raises isReference shallow raises with plain | ⟨marker, rejected, isTarget, again, isRejected⟩ | found
    · exact Or.inl plain
    · exact Or.inr ⟨⟨rejected, isRejected⟩, guarded.cycle (.here isReference) isTarget again⟩
    obtain ⟨marker, document, target, u, v, counts, isTarget, loads, follows, fails⟩ := found
    have soundCounted : Sound env u := by
      rw [(countReference_returns counts).1]
      exact sound
    obtain ⟨isContent, soundLoaded, -⟩ := load_returns soundCounted loads
    have leads : env.Leads currentFile reference (marker.1, target) := ⟨marker.2, document, isTarget, isContent, follows⟩
    have refers := (refers_reference isReference).mpr (Or.inl leads)
    rcases fails with fails | ⟨resolved, w, walks, fails⟩
    · exact ihTarget marker target v t failure soundLoaded (guarded.follow refers ⟨rfl, document, reference, isContent, follows⟩) fails
    · obtain ⟨_, _, _, walked⟩ := walk_expands _ _ _ _ v w resolved soundLoaded walks
      refine ihSiblings w t failure walked.sound (guarded.of_part fun next refers => ?_) fails
      exact (refers_reference isReference).mpr (Or.inr refers)
  case scalar =>
    intro currentFile depth stack shallow other noList noDict s t failure _ _ raises
    rw [walk_scalar shallow noList noDict] at raises
    exact (not_raises_pure raises).elim
  case noMembers =>
    intro currentFile depth stack s t failure _ _ raises
    rw [walkMembers] at raises
    exact (not_raises_pure raises).elim
  case member =>
    intro currentFile depth stack key child rest ihChild ihRest s t failure sound guarded raises
    rw [walkMembers, raises_bind] at raises
    obtain ⟨guardedChild, guardedRest⟩ := List.forall_mem_cons.mp guarded
    rcases raises with fails | ⟨walked, u, walksChild, continues⟩
    · exact ihChild s t failure sound guardedChild fails
    obtain ⟨_, _, _, done⟩ := walk_expands _ _ _ _ s u walked sound walksChild
    rcases raises_bind.mp continues with fails | ⟨_, _, _, ends⟩
    · exact ihRest u t failure done.sound guardedRest fails
    · exact (not_raises_pure ends).elim
  case noItems =>
    intro currentFile depth stack s t failure _ _ raises
    rw [walkItems] at raises
    exact (not_raises_pure raises).elim
  case item =>
    intro currentFile depth stack item rest ihItem ihRest s t failure sound guarded raises
    rw [walkItems, raises_bind] at raises
    obtain ⟨guardedItem, guardedRest⟩ := List.forall_mem_cons.mp guarded
    rcases raises with fails | ⟨walked, u, walksItem, continues⟩
    · exact ihItem s t failure sound guardedItem fails
    obtain ⟨_, _, _, done⟩ := walk_expands _ _ _ _ s u walked sound walksItem
    rcases raises_bind.mp continues with fails | ⟨_, _, _, ends⟩
    · exact ihRest u t failure done.sound guardedRest fails
    · exact (not_raises_pure ends).elim

end LocalRefResolver

end Pytitect
