import Pytitect.Json
import Pytitect.Lib.Decimal
import Pytitect.Lib.Dict
import Pytitect.Lib.Program

namespace Pytitect

structure ResolverLimits where
  maxDepth : Nat
  maxReferences : Nat
  maxTotalBytes : Nat
  positive : 0 < maxDepth ∧ 0 < maxReferences ∧ 0 < maxTotalBytes

structure RefRejected where
  code : String
  detail : String
  reference : Option Text
  deriving DecidableEq

/-- `ResolvedDocument` and `RefRejected`. -/
inductive ResolveResult
  | resolved (value : JsonValue) (references bytesRead : Nat)
  | refRejected (rejection : RefRejected)

/-- What ends a resolution early: an `_ExpectedFailure`, or an exception that `resolve` does not catch. -/
inductive ResolveFailure
  | expected (result : RefRejected)
  | raised (error : PyError)

/-- What `urlsplit` finds. -/
structure UrlParts where
  scheme : Text
  netloc : Text
  path : Text
  query : Text
  fragment : Text

/-- What a YAML document holds: a JSON value, a container in which `validate_json` finds something else, with its
words for it, or something else altogether. -/
inductive YamlValue
  | json (value : JsonValue)
  | mixed (message : String)
  | foreign

/-- The files, by their resolved paths, and what the libraries do with paths, references and contents. -/
structure ResolverEnvironment (φ : Type) where
  root : φ
  parent : φ → φ
  /-- `(base / path).resolve(strict=True)`; there may be no such file. -/
  resolvePath : φ → Text → Option φ
  isAbsolute : Text → Bool
  isRelativeToRoot : φ → Bool
  isFile : φ → Bool
  readBytes : φ → List UInt8
  /-- `path.suffix.lower()` -/
  suffix : φ → String
  urlsplit : Text → Except PyError UrlParts
  unquote : Text → Text
  /-- `json.loads` with `_unique_object` and `_invalid_number`; an error is its text. -/
  jsonLoads : List UInt8 → Except String JsonValue
  /-- `yaml.load` with `_unique_yaml_loader`, if there is such a package. -/
  yamlLoad : Option (List UInt8 → Except String YamlValue)

/-- `str(error)` -/
def errorText : PyError → String
  | .valueError message => message
  | .overflowError message => message
  | .runtimeError message => message
  | .lookupError message => message
  | .unicodeError => ""
  | .raised name => name

namespace ResolverEnvironment
variable {φ : Type} (env : ResolverEnvironment φ)

/-- `_safe_path` -/
def safePath (value : Text) (base : φ) : Except ResolveFailure φ := do
  let parsed ← (env.urlsplit value).mapError .raised
  if parsed.scheme ≠ [] ∨ parsed.netloc ≠ [] then
    .error (.expected ⟨"network_ref", "network references are forbidden", some value⟩)
  else if env.isAbsolute (env.unquote parsed.path) then
    .error (.expected ⟨"absolute_path", "absolute paths are forbidden", some value⟩)
  else
    match env.resolvePath base (env.unquote parsed.path) with
    | none => .error (.expected ⟨"missing_file", "referenced file does not exist", some value⟩)
    | some candidate =>
      if !env.isRelativeToRoot candidate || !env.isFile candidate then
        .error (.expected ⟨"root_escape", "reference escapes resolver root", some value⟩)
      else .ok candidate

/-- `target` -/
def target (reference : Text) (currentFile : φ) : Except ResolveFailure (φ × Text) := do
  let parsed ← (env.urlsplit reference).mapError .raised
  if parsed.scheme ≠ [] ∨ parsed.netloc ≠ [] ∨ parsed.query ≠ [] then
    .error (.expected ⟨"network_ref", "non-local references are forbidden", some reference⟩)
  else do
    let target ← if parsed.path ≠ [] then env.safePath parsed.path (env.parent currentFile) else .ok currentFile
    return (target, env.unquote parsed.fragment)

/-- What `load` takes the bytes of a file for, by its suffix. -/
def deserialize (path : φ) (payload : List UInt8) : Except RefRejected YamlValue :=
  if env.suffix path = ".json" then
    match env.jsonLoads payload with
    | .ok value => .ok (.json value)
    | .error message => .error ⟨"malformed_document", message, none⟩
  else if env.suffix path = ".yaml" ∨ env.suffix path = ".yml" then
    match env.yamlLoad with
    | none => .error ⟨"yaml_unavailable", "install pytitect[contracts] to resolve YAML", none⟩
    | some load =>
      match load payload with
      | .ok value => .ok value
      | .error message => .error ⟨"malformed_document", message, none⟩
  else .error ⟨"unsupported_format", "only JSON and YAML files are supported", none⟩

/-- The part of `load` that depends on the bytes of the file alone. -/
def parse (path : φ) (payload : List UInt8) : Except RefRejected JsonValue := do
  match ← env.deserialize path payload with
  | .foreign => .error ⟨"invalid_document", "document is not JSON-compatible", none⟩
  | .mixed message => .error ⟨"invalid_document", message, none⟩
  | .json value =>
    match validateJson value .default with
    | .ok () => .ok value
    | .error error => .error ⟨"invalid_document", errorText error, none⟩

end ResolverEnvironment

/-- `decode_pointer_token` -/
def decodePointerToken (reference : Text) : Text → Except RefRejected Text
  | [] => .ok []
  | 0x7e :: 0x30 :: rest => (decodePointerToken reference rest).map (0x7e :: ·)
  | 0x7e :: 0x31 :: rest => (decodePointerToken reference rest).map (0x2f :: ·)
  | 0x7e :: _ => .error ⟨"invalid_pointer", "JSON Pointer contains an invalid escape", some reference⟩
  | c :: rest => (decodePointerToken reference rest).map (c :: ·)

/-- A token that is no index as JSON Pointer writes one. -/
def badIndex (token : Text) : Bool :=
  token ≠ "0".codePoints && (token = [] || token.head? = some 0x30 || token.any fun c => c < 0x30 || 0x39 < c)

/-- The loop of `pointer` over the tokens that are left. -/
def descend (reference : Text) (current : JsonValue) : List Text → Except RefRejected JsonValue
  | [] => .ok current
  | rawToken :: rest => do
    let token ← decodePointerToken reference rawToken
    match current with
    | .dict members =>
      match members.lookup token with
      | some child => descend reference child rest
      | none => .error ⟨"missing_pointer", "JSON Pointer does not exist", some reference⟩
    | .list items =>
      if badIndex token then .error ⟨"missing_pointer", "JSON Pointer does not exist", some reference⟩
      else
        match items[Decimal.read token]? with
        | some child => descend reference child rest
        | none => .error ⟨"missing_pointer", "JSON Pointer does not exist", some reference⟩
    | _ => .error ⟨"missing_pointer", "JSON Pointer does not exist", some reference⟩

/-- `pointer` -/
def followPointer (document : JsonValue) (pointer reference : Text) : Except RefRejected JsonValue :=
  if pointer = [] then .ok document
  else if pointer.head? ≠ some 0x2f then .error ⟨"invalid_pointer", "JSON Pointer must start with '/'", some reference⟩
  else descend reference document (pointer.tail.splitOn 0x2f)

/-- `value.get("$ref")`, where it is a string. -/
def JsonValue.reference (members : List (Text × JsonValue)) : Option Text :=
  match members.lookup "$ref".codePoints with
  | some (.str reference) => some reference
  | _ => none

/-- The members beside `$ref`. -/
def JsonValue.siblings (members : List (Text × JsonValue)) : List (Text × JsonValue) :=
  members.filter fun member => member.1 ≠ "$ref".codePoints

/-- `_ResolutionState`. The last field is no part of it: the files that `load` was called for, one call after the other. -/
structure ResolutionState (φ : Type) where
  references : Nat
  bytesRead : Nat
  cache : Dict φ JsonValue
  visited : List φ

namespace LocalRefResolver
variable {φ : Type} [DecidableEq φ] (env : ResolverEnvironment φ) (limits : ResolverLimits)

abbrev Resolving (φ α : Type) : Type := Program (ResolutionState φ) ResolveFailure α

def reject {α : Type} (code detail : String) (reference : Option Text) : Resolving φ α := .raise (.expected ⟨code, detail, reference⟩)

/-- A part that reads nothing of the state. -/
def lift {α : Type} (result : Except ResolveFailure α) : Resolving φ α := fun s => (result, s)

/-- `self.cache.get(path)`, as far as it is not `None`: the `null` of a file is `None` too. -/
def cached (s : ResolutionState φ) (path : φ) : Option JsonValue :=
  match s.cache.get? path with
  | some .null => none
  | found => found

/-- `load` -/
def load (path : φ) : Resolving φ JsonValue := fun s =>
  let s := { s with visited := s.visited ++ [path] }
  match cached s path with
  | some value => (.ok value, s)
  | none =>
    let payload := env.readBytes path
    let s := { s with bytesRead := s.bytesRead + payload.length }
    if limits.maxTotalBytes < s.bytesRead then
      (.error (.expected ⟨"byte_limit", "referenced documents exceed max_total_bytes", none⟩), s)
    else
      match env.parse path payload with
      | .error rejection => (.error (.expected rejection), s)
      | .ok value => (.ok value, { s with cache := s.cache.set path value })

/-- `self.references += 1` and the check of the count. -/
def countReference (reference : Text) : Resolving φ Unit := fun s =>
  let s := { s with references := s.references + 1 }
  if limits.maxReferences < s.references then
    (.error (.expected ⟨"reference_limit", "reference count exceeds max_references", some reference⟩), s)
  else (.ok (), s)

theorem siblings_lt {members : List (Text × JsonValue)} {reference : Text} (found : JsonValue.reference members = some reference) :
    sizeOf (JsonValue.siblings members) < sizeOf members := by
  have shrinks : ∀ rest : List (Text × JsonValue), sizeOf (JsonValue.siblings rest) ≤ sizeOf rest := by
    intro rest
    induction rest with
    | nil => exact Nat.le_refl _
    | cons member rest ih =>
      unfold JsonValue.siblings at ih ⊢
      rw [List.filter_cons]
      split
      · simp only [List.cons.sizeOf_spec]
        omega
      · simp only [List.cons.sizeOf_spec]
        omega
  induction members with
  | nil => cases found
  | cons member rest ih =>
    obtain ⟨key, child⟩ := member
    by_cases isRef : key = "$ref".codePoints
    · have dropped : JsonValue.siblings ((key, child) :: rest) = JsonValue.siblings rest := by
        unfold JsonValue.siblings
        rw [List.filter_cons, if_neg (by simp [isRef])]
      have bound := shrinks rest
      rw [dropped]
      simp only [List.cons.sizeOf_spec, Prod.mk.sizeOf_spec]
      omega
    · have kept : JsonValue.siblings ((key, child) :: rest) = (key, child) :: JsonValue.siblings rest := by
        unfold JsonValue.siblings
        rw [List.filter_cons, if_pos (by simp [isRef])]
      have foundRest : JsonValue.reference rest = some reference := by
        unfold JsonValue.reference at found ⊢
        rwa [List.lookup_cons, beq_false_of_ne (Ne.symm isRef)] at found
      have bound := ih foundRest
      rw [kept]
      simp only [List.cons.sizeOf_spec, Prod.mk.sizeOf_spec]
      omega

mutual

/-- `walk`; the parts of a list or an object are walked in `walkItems` and `walkMembers`. -/
def walk (value : JsonValue) (currentFile : φ) (depth : Nat) (stack : List (φ × Text)) : Resolving φ JsonValue :=
  if _deep : limits.maxDepth < depth then reject "depth_limit" "reference depth exceeds max_depth" none
  else
    match value with
    | .list items => do return .list (← walkItems items currentFile depth stack)
    | .dict members =>
      match _isReference : JsonValue.reference members with
      | none => do return .dict (← walkMembers members currentFile depth stack)
      | some reference => do
        countReference limits reference
        let marker ← lift (env.target reference currentFile)
        if marker ∈ stack then reject "cycle" "cyclic reference detected" (some reference)
        else do
          let document ← load env limits marker.1
          let target ← lift ((followPointer document marker.2 reference).mapError .expected)
          let resolved ← walk target marker.1 (depth + 1) (stack ++ [marker])
          if JsonValue.siblings members = [] then return resolved
          else do
            match ← walk (.dict (JsonValue.siblings members)) currentFile depth stack with
            | .dict walkedSiblings =>
              if "allOf".codePoints ∈ walkedSiblings.map Prod.fst then
                reject "incompatible_siblings" "$ref siblings must not provide their own allOf composition" (some reference)
              else return .dict [("allOf".codePoints, .list [resolved, .dict walkedSiblings])]
            | _ => reject "invalid_siblings" "$ref siblings must form an object" (some reference)
    | other => return other
termination_by (limits.maxDepth + 1 - depth, sizeOf value)
decreasing_by
  · decreasing_tactic
  · decreasing_tactic
  · decreasing_tactic
  · have smaller := siblings_lt _isReference
    decreasing_tactic

def walkItems (items : List JsonValue) (currentFile : φ) (depth : Nat) (stack : List (φ × Text)) : Resolving φ (List JsonValue) :=
  match items with
  | [] => return []
  | item :: rest => do
    let walked ← walk item currentFile depth stack
    return walked :: (← walkItems rest currentFile depth stack)
termination_by (limits.maxDepth + 1 - depth, sizeOf items)

def walkMembers (members : List (Text × JsonValue)) (currentFile : φ) (depth : Nat) (stack : List (φ × Text)) :
    Resolving φ (List (Text × JsonValue)) :=
  match members with
  | [] => return []
  | (key, child) :: rest => do
    let walked ← walk child currentFile depth stack
    return (key, walked) :: (← walkMembers rest currentFile depth stack)
termination_by (limits.maxDepth + 1 - depth, sizeOf members)

end

section
variable {env limits}
variable {currentFile : φ} {depth : Nat} {stack : List (φ × Text)}

theorem walk_deep (deep : limits.maxDepth < depth) (value : JsonValue) :
    walk env limits value currentFile depth stack = reject "depth_limit" "reference depth exceeds max_depth" none := by
  rw [walk.eq_def, dif_pos deep]

variable (shallow : ¬limits.maxDepth < depth)
include shallow

theorem walk_list (items : List JsonValue) :
    walk env limits (.list items) currentFile depth stack = do return .list (← walkItems env limits items currentFile depth stack) := by
  rw [walk, dif_neg shallow]

theorem walk_object {members : List (Text × JsonValue)} (plain : JsonValue.reference members = none) :
    walk env limits (.dict members) currentFile depth stack = do return .dict (← walkMembers env limits members currentFile depth stack) := by
  rw [walk, dif_neg shallow]
  split
  · rfl
  · next found => rw [plain] at found; cases found

theorem walk_reference {members : List (Text × JsonValue)} {reference : Text} (isReference : JsonValue.reference members = some reference) :
    walk env limits (.dict members) currentFile depth stack = (do
      countReference limits reference
      let marker ← lift (env.target reference currentFile)
      if marker ∈ stack then reject "cycle" "cyclic reference detected" (some reference)
      else do
        let document ← load env limits marker.1
        let target ← lift ((followPointer document marker.2 reference).mapError .expected)
        let resolved ← walk env limits target marker.1 (depth + 1) (stack ++ [marker])
        if JsonValue.siblings members = [] then return resolved
        else do
          match ← walk env limits (.dict (JsonValue.siblings members)) currentFile depth stack with
          | .dict walkedSiblings =>
            if "allOf".codePoints ∈ walkedSiblings.map Prod.fst then
              reject "incompatible_siblings" "$ref siblings must not provide their own allOf composition" (some reference)
            else return .dict [("allOf".codePoints, .list [resolved, .dict walkedSiblings])]
          | _ => reject "invalid_siblings" "$ref siblings must form an object" (some reference)) := by
  rw [walk, dif_neg shallow]
  split
  · next found => rw [isReference] at found; cases found
  · next found =>
    rw [isReference] at found
    cases found
    rfl

theorem walk_scalar {value : JsonValue} (noList : ∀ items, value = .list items → False) (noDict : ∀ members, value = .dict members → False) :
    walk env limits value currentFile depth stack = pure value := by
  rw [walk.eq_def, dif_neg shallow]
  split
  · exact (noList _ rfl).elim
  · exact (noDict _ rfl).elim
  · rfl

end

/-- `LocalRefResolver.resolve` of the path that `str(document)` names. -/
def resolve (document : Text) : Except PyError ResolveResult :=
  match env.safePath document env.root with
  | .error (.expected rejection) => .ok (.refRejected rejection)
  | .error (.raised error) => .error error
  | .ok initial =>
    let body : Resolving φ JsonValue := do
      let raw ← load env limits initial
      walk env limits raw initial 0 []
    match body ⟨0, 0, .empty, []⟩ with
    | (.ok value, s) => .ok (.resolved value s.references s.bytesRead)
    | (.error (.expected rejection), _) => .ok (.refRejected rejection)
    | (.error (.raised error), _) => .error error

end LocalRefResolver

end Pytitect