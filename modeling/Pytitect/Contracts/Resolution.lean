import Pytitect.Contracts.Cycles

namespace Pytitect.LocalRefResolver
open Program ResolverEnvironment Relation

section
variable {φ : Type} [DecidableEq φ] {env : ResolverEnvironment φ} {limits : ResolverLimits} {document : Text} {initial : φ}

/-- The state in which a resolution starts. -/
def start : ResolutionState φ := ⟨0, 0, .empty, []⟩

theorem sound_start : Sound env (start : ResolutionState φ) := fun _ _ found => (nomatch found)

theorem resolve_eq (isInitial : env.safePath document env.root = .ok initial) :
    resolve env limits document =
      match (load env limits initial >>= fun raw => walk env limits raw initial 0 []) start with
      | (.ok value, s) => .ok (.resolved value s.references s.bytesRead)
      | (.error (.expected rejection), _) => .ok (.refRejected rejection)
      | (.error (.raised error), _) => .error error := by
  unfold resolve
  rw [isInitial]
  rfl

theorem resolve_refused {failure : ResolveFailure} (fails : env.safePath document env.root = .error failure) :
    (∃ rejected, failure = .expected rejected ∧ resolve env limits document = .ok (.refRejected rejected)) ∨
      ∃ error, failure = .raised error ∧ resolve env limits document = .error error := by
  unfold resolve
  rw [fails]
  cases failure with
  | expected rejected => exact Or.inl ⟨rejected, rfl, rfl⟩
  | raised error => exact Or.inr ⟨error, rfl, rfl⟩

/-- A document is resolved, or it fails on its path, when it is loaded or when it is walked. -/
theorem resolve_cases (env : ResolverEnvironment φ) (limits : ResolverLimits) (document : Text) :
    (∃ initial raw s value t, env.safePath document env.root = .ok initial ∧ (load env limits initial).Returns start raw s ∧
        (walk env limits raw initial 0 []).Returns s value t ∧
        resolve env limits document = .ok (.resolved value t.references t.bytesRead)) ∨
      ∃ failure, ((∃ rejected, failure = .expected rejected ∧ resolve env limits document = .ok (.refRejected rejected)) ∨
          ∃ error, failure = .raised error ∧ resolve env limits document = .error error) ∧
        (env.safePath document env.root = .error failure ∨ ∃ initial, env.safePath document env.root = .ok initial ∧
          ((∃ s, (load env limits initial).Raises start failure s) ∨
            ∃ raw s t, (load env limits initial).Returns start raw s ∧ (walk env limits raw initial 0 []).Raises s failure t)) := by
  cases isInitial : env.safePath document env.root with
  | error failure => exact Or.inr ⟨failure, resolve_refused isInitial, Or.inl rfl⟩
  | ok initial =>
    rw [resolve_eq isInitial]
    rcases returns_or_raises (load env limits initial >>= fun raw => walk env limits raw initial 0 []) start with
      ⟨value, t, returns⟩ | ⟨failure, t, raises⟩
    · obtain ⟨raw, s, loads, walks⟩ := returns_bind.mp returns
      unfold Returns at returns
      rw [returns]
      exact Or.inl ⟨initial, raw, s, value, t, rfl, loads, walks, rfl⟩
    · refine Or.inr ⟨failure, ?_, Or.inr ⟨initial, rfl, ?_⟩⟩
      · unfold Raises at raises
        rw [raises]
        cases failure with
        | expected rejected => exact Or.inl ⟨rejected, rfl, rfl⟩
        | raised error => exact Or.inr ⟨error, rfl, rfl⟩
      · rcases raises_bind.mp raises with fails | ⟨raw, s, loads, fails⟩
        · exact Or.inl ⟨t, fails⟩
        · exact Or.inr ⟨raw, s, t, loads, fails⟩

/-- A failure names no cycle, unless there is one. -/
theorem resolve_fails {failure : ResolveFailure}
    (fails : env.safePath document env.root = .error failure ∨ ∃ initial, env.safePath document env.root = .ok initial ∧
      ((∃ s, (load env limits initial).Raises start failure s) ∨
        ∃ raw s t, (load env limits initial).Returns start raw s ∧ (walk env limits raw initial 0 []).Raises s failure t)) :
    NoCycle env failure ∨ ∃ initial raw, env.safePath document env.root = .ok initial ∧ env.content initial = .ok raw ∧
      Cyclic env (initial, raw) failure := by
  rcases fails with fails | ⟨initial, isInitial, ⟨s, fails⟩ | ⟨raw, s, t, loads, fails⟩⟩
  · exact Or.inl (safePath_plain fails)
  · exact Or.inl (load_raises fails)
  · obtain ⟨isContent, sound, -⟩ := load_returns sound_start loads
    have guarded : Guarded env (initial, raw) initial raw [] := ⟨fun _ refers => .single refers, fun _ member => (nomatch member)⟩
    rcases walk_raises (initial, raw) raw initial 0 [] s t failure sound guarded fails with plain | cyclic
    · exact Or.inl plain
    · exact Or.inr ⟨initial, raw, isInitial, isContent, cyclic⟩

end

/-- One file in a directory. One of its objects has an object for its `$ref`, which refers to a string. -/
def nestedDocument : JsonValue :=
  .dict [("a".codePoints, .dict [("$ref".codePoints, .dict [("$ref".codePoints, .str "#/s".codePoints)])]), ("s".codePoints, .str "x".codePoints)]

def nestedBytes : List UInt8 := Text.utf8 "\x7b\"a\": \x7b\"$ref\": \x7b\"$ref\": \"#/s\"\x7d\x7d, \"s\": \"x\"\x7d".codePoints

def nestedFiles : ResolverEnvironment Bool where
  root := false
  parent := fun _ => false
  resolvePath := fun _ path => if path = "root.json".codePoints then some true else none
  isAbsolute := fun path => path.head? = some 0x2f
  isRelativeToRoot := fun _ => true
  isFile := id
  readBytes := fun _ => nestedBytes
  suffix := fun file => if file then ".json" else ""
  urlsplit := fun text => .ok ⟨[], [], text.takeWhile (· ≠ 0x23), [], (text.dropWhile (· ≠ 0x23)).tail⟩
  unquote := id
  jsonLoads := fun payload => if payload = nestedBytes then .ok nestedDocument else .error "Expecting value"
  yamlLoad := none

def defaultLimits : ResolverLimits := ⟨32, 1000, 8388608, by decide⟩

def nestedLoaded : ResolutionState Bool := ⟨0, nestedBytes.length, ⟨[(true, nestedDocument)], by simp⟩, [true]⟩

def nestedWalked : ResolutionState Bool := ⟨1, nestedBytes.length, ⟨[(true, nestedDocument)], by simp⟩, [true, true]⟩

theorem walk_text (text : Text) {depth : Nat} (shallow : ¬defaultLimits.maxDepth < depth) (stack : List (Bool × Text)) (s : ResolutionState Bool) :
    (walk nestedFiles defaultLimits (.str text) true depth stack).Returns s (.str text) s := by
  rw [walk_scalar shallow (by simp) (by simp)]
  exact returns_pure.mpr ⟨rfl, rfl⟩

theorem walk_innerReference : (walk nestedFiles defaultLimits (.dict [("$ref".codePoints, .str "#/s".codePoints)]) true 0 []).Returns nestedLoaded
    (.str "x".codePoints) nestedWalked := by
  have isReference : JsonValue.reference [("$ref".codePoints, .str "#/s".codePoints)] = some "#/s".codePoints := by rfl
  rw [walk_reference (by decide) isReference]
  refine returns_bind.mpr ⟨(), { nestedLoaded with references := 1 }, by rfl, ?_⟩
  refine returns_bind.mpr ⟨(true, "/s".codePoints), { nestedLoaded with references := 1 }, returns_lift.mpr ⟨by rfl, rfl⟩, ?_⟩
  refine returns_bind.mpr ⟨nestedDocument, nestedWalked, by rfl, ?_⟩
  refine returns_bind.mpr ⟨.str "x".codePoints, nestedWalked, returns_lift.mpr ⟨by rfl, rfl⟩, ?_⟩
  exact returns_bind.mpr ⟨.str "x".codePoints, nestedWalked, walk_text _ (by decide) _ _, by rfl⟩

theorem walk_nestedDocument : (walk nestedFiles defaultLimits nestedDocument true 0 []).Returns nestedLoaded
    (.dict [("a".codePoints, .dict [("$ref".codePoints, .str "x".codePoints)]), ("s".codePoints, .str "x".codePoints)]) nestedWalked := by
  rw [nestedDocument, walk_object (by decide) (by rfl)]
  refine returns_bind.mpr ⟨_, nestedWalked, ?_, rfl⟩
  rw [walkMembers]
  refine returns_bind.mpr ⟨.dict [("$ref".codePoints, .str "x".codePoints)], nestedWalked, ?_, ?_⟩
  · rw [walk_object (by decide) (by rfl)]
    refine returns_bind.mpr ⟨_, nestedWalked, ?_, rfl⟩
    rw [walkMembers]
    refine returns_bind.mpr ⟨_, nestedWalked, walk_innerReference, ?_⟩
    rw [walkMembers]
    exact returns_bind.mpr ⟨[], nestedWalked, returns_pure.mpr ⟨rfl, rfl⟩, returns_pure.mpr ⟨rfl, rfl⟩⟩
  · rw [walkMembers]
    refine returns_bind.mpr ⟨_, nestedWalked, ?_, rfl⟩
    refine returns_bind.mpr ⟨_, nestedWalked, walk_text _ (by decide) _ _, ?_⟩
    rw [walkMembers]
    exact returns_bind.mpr ⟨[], nestedWalked, returns_pure.mpr ⟨rfl, rfl⟩, returns_pure.mpr ⟨rfl, rfl⟩⟩

end Pytitect.LocalRefResolver
