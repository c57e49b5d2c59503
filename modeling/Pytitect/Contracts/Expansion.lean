import Pytitect.Contracts.Resolver
import Pytitect.Lib.Layers

namespace Pytitect

/-- The value holds an object whose `$ref` is this string. -/
inductive Mentions (reference : Text) : JsonValue → Prop
  | here {members : List (Text × JsonValue)} : JsonValue.reference members = some reference → Mentions reference (.dict members)
  | item {child : JsonValue} {items : List JsonValue} : child ∈ items → Mentions reference child → Mentions reference (.list items)
  | member {key : Text} {child : JsonValue} {members : List (Text × JsonValue)} : (key, child) ∈ members →
      key ≠ "$ref".codePoints ∨ JsonValue.reference members = none → Mentions reference child → Mentions reference (.dict members)

namespace ResolverEnvironment
variable {φ : Type} (env : ResolverEnvironment φ)

/-- The JSON value of a file. -/
def content (file : φ) : Except RefRejected JsonValue := env.parse file (env.readBytes file)

/-- The value that a reference in a file leads to, with the file that holds it. -/
def Leads (file : φ) (reference : Text) (location : φ × JsonValue) : Prop :=
  ∃ pointer document, env.target reference file = .ok (location.1, pointer) ∧ env.content location.1 = .ok document ∧
    followPointer document pointer reference = .ok location.2

def Refers (location next : φ × JsonValue) : Prop := ∃ reference, Mentions reference location.2 ∧ env.Leads location.1 reference next

mutual

/-- The full expansion of a value in a file: an object with a string `$ref` becomes the expansion of what it refers to, or
that and the expansion of its other members. The files are those that the references lead to, one after the other, and
`depth` is how deep the references are nested. -/
inductive Expands : φ → JsonValue → JsonValue → List φ → Nat → Prop
  | scalar {file : φ} {value : JsonValue} (noList : ∀ items, value = .list items → False) (noDict : ∀ members, value = .dict members → False) :
      Expands file value value [] 0
  | list {file : φ} {items results : List JsonValue} {files : List φ} {depth : Nat} :
      ExpandsItems file items results files depth → Expands file (.list items) (.list results) files depth
  | object {file : φ} {members results : List (Text × JsonValue)} {files : List φ} {depth : Nat} : JsonValue.reference members = none →
      ExpandsMembers file members results files depth → Expands file (.dict members) (.dict results) files depth
  | reference {file : φ} {members : List (Text × JsonValue)} {reference : Text} {location : φ × JsonValue} {resolved : JsonValue}
      {files : List φ} {depth : Nat} : JsonValue.reference members = some reference → env.Leads file reference location →
      Expands location.1 location.2 resolved files depth → JsonValue.siblings members = [] →
      Expands file (.dict members) resolved (location.1 :: files) (depth + 1)
  | beside {file : φ} {members : List (Text × JsonValue)} {reference : Text} {location : φ × JsonValue} {resolved walked : JsonValue}
      {files others : List φ} {depth otherDepth : Nat} : JsonValue.reference members = some reference → env.Leads file reference location →
      Expands location.1 location.2 resolved files depth → JsonValue.siblings members ≠ [] →
      Expands file (.dict (JsonValue.siblings members)) walked others otherDepth →
      Expands file (.dict members) (.dict [("allOf".codePoints, .list [resolved, walked])]) (location.1 :: (files ++ others))
        (max (depth + 1) otherDepth)

inductive ExpandsItems : φ → List JsonValue → List JsonValue → List φ → Nat → Prop
  | nil {file : φ} : ExpandsItems file [] [] [] 0
  | cons {file : φ} {item result : JsonValue} {rest results : List JsonValue} {files others : List φ} {depth otherDepth : Nat} :
      Expands file item result files depth → ExpandsItems file rest results others otherDepth →
      ExpandsItems file (item :: rest) (result :: results) (files ++ others) (max depth otherDepth)

inductive ExpandsMembers : φ → List (Text × JsonValue) → List (Text × JsonValue) → List φ → Nat → Prop
  | nil {file : φ} : ExpandsMembers file [] [] [] 0
  | cons {file : φ} {key : Text} {child result : JsonValue} {rest results : List (Text × JsonValue)} {files others : List φ}
      {depth otherDepth : Nat} : Expands file child result files depth → ExpandsMembers file rest results others otherDepth →
      ExpandsMembers file ((key, child) :: rest) ((key, result) :: results) (files ++ others) (max depth otherDepth)

end

variable {env}

theorem Leads.unique {file : φ} {reference : Text} {location other : φ × JsonValue} (first : env.Leads file reference location)
    (second : env.Leads file reference other) : location = other := by
  obtain ⟨pointer, document, isTarget, holds, isLocation⟩ := first
  obtain ⟨pointer', document', isTarget', holds', isOther⟩ := second
  obtain ⟨sameFile, rfl⟩ := Prod.mk.inj (Except.ok.inj (isTarget.symm.trans isTarget'))
  rw [← sameFile, holds] at holds'
  cases holds'
  rw [isLocation] at isOther
  exact Prod.ext sameFile (Except.ok.inj isOther)

end ResolverEnvironment

namespace LocalRefResolver
open Program ResolverEnvironment
variable {φ : Type} {s t : ResolutionState φ}

@[simp] theorem returns_lift {α : Type} {result : Except ResolveFailure α} {a : α} :
    (lift result : Resolving φ α).Returns s a t ↔ result = .ok a ∧ t = s := by
  simp only [Returns, lift, Prod.mk.injEq]
  exact and_congr_right fun _ => eq_comm

@[simp] theorem raises_lift {α : Type} {result : Except ResolveFailure α} {failure : ResolveFailure} :
    (lift result : Resolving φ α).Raises s failure t ↔ result = .error failure ∧ t = s := by
  simp only [Raises, lift, Prod.mk.injEq]
  exact and_congr_right fun _ => eq_comm

@[simp] theorem not_returns_reject {α : Type} {code detail : String} {reference : Option Text} {a : α} :
    ¬(reject code detail reference : Resolving φ α).Returns s a t := not_returns_raise

variable {env : ResolverEnvironment φ} {limits : ResolverLimits}

theorem countReference_returns {reference : Text} (returns : (countReference limits reference : Resolving φ Unit).Returns s () t) :
    t = { s with references := s.references + 1 } ∧ t.references ≤ limits.maxReferences := by
  unfold Returns countReference at returns
  dsimp only at returns
  split at returns
  · cases returns
  next within =>
    cases returns
    exact ⟨rfl, Nat.le_of_not_lt within⟩

variable [DecidableEq φ]

/-- What is cached of a file is its JSON value. -/
def Sound (env : ResolverEnvironment φ) (s : ResolutionState φ) : Prop :=
  ∀ path value, s.cache.get? path = some value → env.content path = .ok value

theorem cached_sound {path : φ} {value : JsonValue} (sound : Sound env s) (found : cached s path = some value) : env.content path = .ok value := by
  unfold cached at found
  split at found
  · cases found
  · exact sound path value found

theorem load_returns {path : φ} {value : JsonValue} (sound : Sound env s) (returns : (load env limits path).Returns s value t) :
    env.content path = .ok value ∧ Sound env t ∧ t.references = s.references ∧ t.visited = s.visited ++ [path] := by
  unfold Returns load at returns
  dsimp only at returns
  split at returns
  · next hit =>
    cases returns
    exact ⟨cached_sound (s := { s with visited := s.visited ++ [path] }) sound hit, sound, rfl, rfl⟩
  · split at returns
    · cases returns
    split at returns
    · cases returns
    next parsed =>
      cases returns
      refine ⟨parsed, fun other known found => ?_, rfl, rfl⟩
      rw [Dict.get?_set] at found
      split at found
      · next same =>
        cases found
        rw [same]
        exact parsed
      · exact sound other known found

/-- What a walk at a depth has done when it has followed `files`, nested `nested` deep. -/
structure Walked (env : ResolverEnvironment φ) (limits : ResolverLimits) (depth : Nat) (s t : ResolutionState φ) (files : List φ) (nested : Nat) :
    Prop where
  sound : Sound env t
  visited : t.visited = s.visited ++ files
  references : t.references = s.references + files.length
  counted : t.references ≤ max s.references limits.maxReferences
  deep : nested ≤ limits.maxDepth - depth

theorem Walked.refl (sound : Sound env s) (depth : Nat) : Walked env limits depth s s [] 0 :=
  ⟨sound, (List.append_nil _).symm, rfl, Nat.le_max_left _ _, Nat.zero_le _⟩

theorem Walked.trans {u : ResolutionState φ} {depth nested other : Nat} {files others : List φ} (first : Walked env limits depth s t files nested)
    (second : Walked env limits depth t u others other) : Walked env limits depth s u (files ++ others) (max nested other) where
  sound := second.sound
  visited := by rw [second.visited, first.visited, List.append_assoc]
  references := by rw [second.references, first.references, List.length_append, Nat.add_assoc]
  counted := by
    have before := first.counted
    have after := second.counted
    omega
  deep := Nat.max_le.mpr ⟨first.deep, second.deep⟩

theorem Walked.reference {u v : ResolutionState φ} {depth nested : Nat} {reference : Text} {file : φ} {document : JsonValue} {files : List φ}
    (sound : Sound env s) (counts : (countReference limits reference : Resolving φ Unit).Returns s () t)
    (loads : (load env limits file).Returns t document u) (below : depth < limits.maxDepth)
    (walked : Walked env limits (depth + 1) u v files nested) : Walked env limits depth s v (file :: files) (nested + 1) := by
  obtain ⟨rfl, within⟩ := countReference_returns counts
  obtain ⟨-, -, sameReferences, visited⟩ := load_returns (show Sound env { s with references := s.references + 1 } from sound) loads
  have referencesAfter := walked.references
  have countedAfter := walked.counted
  have deepAfter := walked.deep
  refine ⟨walked.sound, ?_, ?_, ?_, ?_⟩
  · rw [walked.visited, visited, List.append_assoc, List.singleton_append]
  · rw [referencesAfter, sameReferences, List.length_cons, Nat.add_assoc, Nat.add_comm 1]
  · rw [sameReferences] at countedAfter
    exact countedAfter.trans (Nat.max_le.mpr ⟨within.trans (Nat.le_max_right _ _), Nat.le_max_right _ _⟩)
  · omega

theorem shallow_of_returns {value result : JsonValue} {currentFile : φ} {depth : Nat} {stack : List (φ × Text)}
    (returns : (walk env limits value currentFile depth stack).Returns s result t) : depth ≤ limits.maxDepth := by
  by_contra deep
  rw [walk_deep (Nat.not_le.mp deep)] at returns
  exact not_returns_reject returns

/-- What happens when a reference is followed: its target is found, loaded and walked, then the other members are. -/
theorem reference_returns {members : List (Text × JsonValue)} {reference : Text} {result : JsonValue} {currentFile : φ} {depth : Nat}
    {stack : List (φ × Text)} (isReference : JsonValue.reference members = some reference) (shallow : ¬limits.maxDepth < depth)
    (returns : (walk env limits (.dict members) currentFile depth stack).Returns s result t) :
    ∃ marker document target resolved u v w, (countReference limits reference : Resolving φ Unit).Returns s () u ∧
      env.target reference currentFile = .ok marker ∧ marker ∉ stack ∧ (load env limits marker.1).Returns u document v ∧
      followPointer document marker.2 reference = .ok target ∧
      (walk env limits target marker.1 (depth + 1) (stack ++ [marker])).Returns v resolved w ∧
      (JsonValue.siblings members = [] ∧ result = resolved ∧ t = w ∨ JsonValue.siblings members ≠ [] ∧ ∃ walked,
        (walk env limits (.dict (JsonValue.siblings members)) currentFile depth stack).Returns w (.dict walked) t ∧
          result = .dict [("allOf".codePoints, .list [resolved, .dict walked])]) := by
  rw [walk_reference shallow isReference, returns_bind] at returns
  obtain ⟨_, u, counts, finds⟩ := returns
  obtain ⟨marker, _, found, checks⟩ := returns_bind.mp finds
  obtain ⟨isTarget, rfl⟩ := returns_lift.mp found
  by_cases new : marker ∈ stack
  · rw [if_pos new] at checks
    exact (not_returns_reject checks).elim
  rw [if_neg new] at checks
  obtain ⟨document, v, loads, points⟩ := returns_bind.mp checks
  obtain ⟨target, _, points, descends⟩ := returns_bind.mp points
  obtain ⟨follows, rfl⟩ := returns_lift.mp points
  obtain ⟨resolved, w, walks, ends⟩ := returns_bind.mp descends
  have followed : followPointer document marker.2 reference = .ok target := by
    cases result : followPointer document marker.2 reference with
    | error rejection =>
      rw [result] at follows
      cases follows
    | ok value =>
      rw [result] at follows
      cases follows
      rfl
  refine ⟨marker, document, target, resolved, _, _, w, counts, isTarget, new, loads, followed, walks, ?_⟩
  by_cases none : JsonValue.siblings members = []
  · rw [if_pos none] at ends
    obtain ⟨rfl, rfl⟩ := returns_pure.mp ends
    exact Or.inl ⟨none, rfl, rfl⟩
  rw [if_neg none] at ends
  obtain ⟨walkedSiblings, x, walksSiblings, joins⟩ := returns_bind.mp ends
  split at joins
  · split at joins
    · exact (not_returns_reject joins).elim
    obtain ⟨rfl, rfl⟩ := returns_pure.mp joins
    exact Or.inr ⟨none, _, walksSiblings, rfl⟩
  · exact (not_returns_reject joins).elim

/-- A walk that returns has expanded the value. -/
theorem walk_expands (value : JsonValue) (currentFile : φ) (depth : Nat) (stack : List (φ × Text)) :
    ∀ s t result, Sound env s → (walk env limits value currentFile depth stack).Returns s result t →
      ∃ files nested, env.Expands currentFile value result files nested ∧ Walked env limits depth s t files nested := by
  refine walk.induct limits
    (fun value currentFile depth stack => ∀ s t result, Sound env s → (walk env limits value currentFile depth stack).Returns s result t →
      ∃ files nested, env.Expands currentFile value result files nested ∧ Walked env limits depth s t files nested)
    (fun members currentFile depth stack => ∀ s t results, Sound env s →
      (walkMembers env limits members currentFile depth stack).Returns s results t →
        ∃ files nested, env.ExpandsMembers currentFile members results files nested ∧ Walked env limits depth s t files nested)
    (fun items currentFile depth stack => ∀ s t results, Sound env s → (walkItems env limits items currentFile depth stack).Returns s results t →
      ∃ files nested, env.ExpandsItems currentFile items results files nested ∧ Walked env limits depth s t files nested)
    ?deep ?list ?object ?reference ?scalar ?noMembers ?member ?noItems ?item value currentFile depth stack
  case deep =>
    intro value currentFile depth stack deep s t result _ returns
    rw [walk_deep deep] at returns
    exact (not_returns_reject returns).elim
  case list =>
    intro currentFile depth stack shallow items ih s t result sound returns
    rw [walk_list shallow, returns_bind] at returns
    obtain ⟨results, u, walked, ends⟩ := returns
    obtain ⟨rfl, rfl⟩ := returns_pure.mp ends
    obtain ⟨files, nested, expands, done⟩ := ih s t results sound walked
    exact ⟨files, nested, .list expands, done⟩
  case object =>
    intro currentFile depth stack shallow members plain ih s t result sound returns
    rw [walk_object shallow plain, returns_bind] at returns
    obtain ⟨results, u, walked, ends⟩ := returns
    obtain ⟨rfl, rfl⟩ := returns_pure.mp ends
    obtain ⟨files, nested, expands, done⟩ := ih s t results sound walked
    exact ⟨files, nested, .object plain expands, done⟩
  case reference =>
    intro currentFile depth stack shallow members reference isReference ihTarget ihSiblings s t result sound returns
    obtain ⟨marker, document, target, resolved, u, v, w, counts, isTarget, -, loads, follows, walks, ends⟩ :=
      reference_returns isReference shallow returns
    have soundCounted : Sound env u := by
      rw [(countReference_returns counts).1]
      exact sound
    obtain ⟨isContent, soundLoaded, -⟩ := load_returns soundCounted loads
    have leads : env.Leads currentFile reference (marker.1, target) := ⟨marker.2, document, isTarget, isContent, follows⟩
    obtain ⟨files, nested, expands, done⟩ := ihTarget marker target v w resolved soundLoaded walks
    have followed := Walked.reference sound counts loads (shallow_of_returns walks) done
    rcases ends with ⟨none, rfl, rfl⟩ | ⟨some, walked, walksSiblings, rfl⟩
    · exact ⟨_, _, .reference isReference leads expands none, followed⟩
    · obtain ⟨others, otherNested, expandsSiblings, doneSiblings⟩ := ihSiblings w t _ followed.sound walksSiblings
      exact ⟨_, _, .beside isReference leads expands some expandsSiblings, followed.trans doneSiblings⟩
  case scalar =>
    intro currentFile depth stack shallow other noList noDict s t result sound returns
    rw [walk_scalar shallow noList noDict] at returns
    obtain ⟨rfl, rfl⟩ := returns_pure.mp returns
    exact ⟨[], 0, .scalar noList noDict, .refl sound depth⟩
  case noMembers =>
    intro currentFile depth stack s t results sound returns
    rw [walkMembers] at returns
    obtain ⟨rfl, rfl⟩ := returns_pure.mp returns
    exact ⟨[], 0, .nil, .refl sound depth⟩
  case member =>
    intro currentFile depth stack key child rest ihChild ihRest s t results sound returns
    rw [walkMembers, returns_bind] at returns
    obtain ⟨walked, u, walksChild, returns⟩ := returns
    obtain ⟨others, v, walksRest, ends⟩ := returns_bind.mp returns
    obtain ⟨rfl, rfl⟩ := returns_pure.mp ends
    obtain ⟨files, nested, expands, done⟩ := ihChild s u walked sound walksChild
    obtain ⟨filesRest, nestedRest, expandsRest, doneRest⟩ := ihRest u t others done.sound walksRest
    exact ⟨_, _, .cons expands expandsRest, done.trans doneRest⟩
  case noItems =>
    intro currentFile depth stack s t results sound returns
    rw [walkItems] at returns
    obtain ⟨rfl, rfl⟩ := returns_pure.mp returns
    exact ⟨[], 0, .nil, .refl sound depth⟩
  case item =>
    intro currentFile depth stack item rest ihItem ihRest s t results sound returns
    rw [walkItems, returns_bind] at returns
    obtain ⟨walked, u, walksItem, returns⟩ := returns
    obtain ⟨others, v, walksRest, ends⟩ := returns_bind.mp returns
    obtain ⟨rfl, rfl⟩ := returns_pure.mp ends
    obtain ⟨files, nested, expands, done⟩ := ihItem s u walked sound walksItem
    obtain ⟨filesRest, nestedRest, expandsRest, doneRest⟩ := ihRest u t others done.sound walksRest
    exact ⟨_, _, .cons expands expandsRest, done.trans doneRest⟩

end LocalRefResolver

end Pytitect
