import Pytitect.Security.Encoding
import Pytitect.Wire.Document
import Mathlib.Data.List.DropRight

namespace Pytitect
open JsonText

def maxTraceparentLength : Nat := 1024
def maxTracestateLength : Nat := 512
def maxTracestateMembers : Nat := 32

/-- `[0-9a-f]+` -/
def isLowerHex (text : Text) : Bool := text ≠ [] && text.all fun c => isDigit c || (0x61 ≤ c.val && c.val ≤ 0x66)

def isKeyStart (c : CodePoint) : Bool := isDigit c || (0x61 ≤ c.val && c.val ≤ 0x7a)

/-- `[a-z0-9][a-z0-9_*/@-]{0,255}` -/
def isTracestateKey : Text → Bool
  | [] => false
  | c :: rest => isKeyStart c && rest.length ≤ 255 && rest.all fun c =>
      isKeyStart c || c = 0x5f || c = 0x2a || c = 0x2f || c = 0x40 || c = 0x2d

def isPrintable (c : CodePoint) : Bool := 0x20 ≤ c.val && c.val ≤ 0x7e

/-- `_hex_identifier` -/
def hexIdentifier (value : Text) (length : Nat) (name : String) : Except PyError Unit :=
  if value.length ≠ length ∨ isLowerHex value = false ∨ (value ≠ [] ∧ ∀ c ∈ value, c = 0x30) then
    .error (.valueError (name ++ " must be non-zero lowercase hexadecimal with length " ++ toString length))
  else .ok ()

/-- `_tracestate_value` -/
def tracestateValue (value : Text) : Except PyError Unit :=
  if value = [] ∨ 256 < value.length ∨ value.getLast? = some 0x20 then .error (.valueError "tracestate contains an invalid value")
  else if value.all isPrintable = false then .error (.valueError "tracestate values must contain printable ASCII")
  else if 0x2c ∈ value ∨ 0x3d ∈ value then .error (.valueError "tracestate values cannot contain comma or equals")
  else .ok ()

def tracestateMember (member : Text × Text) : Except PyError Unit :=
  if isTracestateKey member.1 = false then .error (.valueError "tracestate contains an invalid key")
  else tracestateValue member.2

def tracestateMembers : List (Text × Text) → Except PyError Unit
  | [] => .ok ()
  | member :: rest => do
    tracestateMember member
    tracestateMembers rest

/-- `key=value` -/
def renderedMember (member : Text × Text) : Text := member.1 ++ 0x3d :: member.2

def renderedMembers (members : List (Text × Text)) : Text := [0x2c].intercalate (members.map renderedMember)

/-- `_validate_tracestate` -/
def validateTracestate (value : List (Text × Text)) : Except PyError Unit :=
  if maxTracestateMembers < value.length then .error (.valueError "tracestate must be a tuple with at most 32 members")
  else do
    tracestateMembers value
    if ¬(value.map Prod.fst).Nodup then .error (.valueError "tracestate keys must be unique")
    else if maxTracestateLength < (renderedMembers value).length then .error (.valueError "tracestate exceeds 512 characters")
    else .ok ()

def TraceContext.postInit (traceId parentId : Text) (traceFlags : Int) (tracestate : List (Text × Text)) : Except PyError Unit := do
  hexIdentifier traceId 32 "trace_id"
  hexIdentifier parentId 16 "parent_id"
  if traceFlags < 0 ∨ 3 < traceFlags then
    .error (.valueError "trace_flags may contain only sampled and random-trace-ID bits")
  else validateTracestate tracestate

/-- A validated version-00 W3C trace position and optional vendor state. -/
@[ext] structure TraceContext where
  traceId : Text
  parentId : Text
  traceFlags : Int
  tracestate : List (Text × Text)
  valid : TraceContext.postInit traceId parentId traceFlags tracestate = .ok ()

/-- `f"{n:02x}"` of a byte. -/
def hexByte (n : Nat) : Text := [Wire.hexLetter (n / 16), Wire.hexLetter (n % 16)]

/-- `int(text, 16)` of hexadecimal digits. -/
def readHex (text : Text) : Nat := text.foldl (fun n c => n * 16 + (hexDigit c).getD 0) 0

namespace TraceContext

/-- `TraceContext(...)` -/
def make (traceId parentId : Text) (traceFlags : Int) (tracestate : List (Text × Text)) : Except PyError TraceContext :=
  match passed : postInit traceId parentId traceFlags tracestate with
  | .ok () => .ok ⟨traceId, parentId, traceFlags, tracestate, passed⟩
  | .error error => .error error

variable (context : TraceContext)

def renderTraceparent : Text :=
  "00-".codePoints ++ context.traceId ++ [0x2d] ++ context.parentId ++ [0x2d] ++ hexByte context.traceFlags.toNat

def renderTracestate : Option Text := if context.tracestate = [] then none else some (renderedMembers context.tracestate)

def toHeaders : Dict Text Text :=
  let headers := Dict.empty.set "traceparent".codePoints context.renderTraceparent
  match context.renderTracestate with
  | some tracestate => headers.set "tracestate".codePoints tracestate
  | none => headers

end TraceContext

/-- `value.strip(" \t")` -/
def stripBlanks (text : Text) : Text :=
  (text.dropWhile fun c => c = 0x20 || c = 0x09).rdropWhile fun c => c = 0x20 || c = 0x09

/-- The loop of `parse_tracestate`. -/
def parseMembers : List Text → Except PyError (List (Text × Text))
  | [] => .ok []
  | rawMember :: rest =>
    let member := stripBlanks rawMember
    if member = [] then parseMembers rest
    else if 0x3d ∉ member then .error (.valueError "tracestate members must contain equals")
    else do
      let key := member.takeWhile (· ≠ 0x3d)
      let value := (member.dropWhile (· ≠ 0x3d)).tail
      tracestateMember (key, value)
      let members ← parseMembers rest
      return (key, value) :: members

def parseTracestate (value : Text) : Except PyError (List (Text × Text)) :=
  if maxTracestateLength < value.length then .error (.valueError "tracestate exceeds 512 characters")
  else
    let rawMembers := value.splitOn 0x2c
    if maxTracestateMembers < rawMembers.length then .error (.valueError "tracestate contains more than 32 members")
    else do
      let members ← parseMembers rawMembers
      if ¬(members.map Prod.fst).Nodup then .error (.valueError "tracestate keys must be unique")
      else return members

/-- The checks of `parse_trace_context` that do not take the header apart. -/
def checkTraceparent (traceparent : Text) : Except PyError Unit :=
  if traceparent.length < 55 ∨ maxTraceparentLength < traceparent.length then
    .error (.valueError "traceparent has an invalid length")
  else if traceparent.all isPrintable = false then .error (.valueError "traceparent must contain printable ASCII")
  else if traceparent[2]? ≠ some 0x2d ∨ traceparent[35]? ≠ some 0x2d ∨ traceparent[52]? ≠ some 0x2d then
    .error (.valueError "traceparent has invalid delimiters")
  else
    let versionText := traceparent.take 2
    if isLowerHex versionText = false ∨ versionText = "ff".codePoints then
      .error (.valueError "traceparent has an invalid version")
    else
      let version := readHex versionText
      if version = 0 ∧ traceparent.length ≠ 55 then
        .error (.valueError "version 00 traceparent must contain exactly four fields")
      else if 0 < version ∧ 55 < traceparent.length ∧ traceparent[55]? ≠ some 0x2d then
        .error (.valueError "future traceparent fields must follow a delimiter")
      else .ok ()

/-- `parse_tracestate(tracestate) if tracestate is not None else ()` -/
def optionalTracestate : Option Text → Except PyError (List (Text × Text))
  | some tracestate => parseTracestate tracestate
  | none => .ok []

/-- Parse W3C headers and normalize supported or additive future versions to version 00. -/
def parseTraceContext (traceparent : Text) (tracestate : Option Text) : Except PyError TraceContext := do
  checkTraceparent traceparent
  let traceId := (traceparent.drop 3).take 32
  let parentId := (traceparent.drop 36).take 16
  let flagsText := (traceparent.drop 53).take 2
  hexIdentifier traceId 32 "trace_id"
  hexIdentifier parentId 16 "parent_id"
  if isLowerHex flagsText = false then .error (.valueError "trace_flags must be lowercase hexadecimal")
  else do
    let members ← optionalTracestate tracestate
    let flags := readHex flagsText &&& 0x03
    TraceContext.make traceId parentId flags members

/-- `str.casefold`, which leaves the two lowercase names as they are. -/
structure Casefold where
  fold : Text → Text
  traceparent : fold "traceparent".codePoints = "traceparent".codePoints
  tracestate : fold "tracestate".codePoints = "tracestate".codePoints

/-- The loop of `trace_context_from_headers`. -/
def selectHeaders (casefold : Casefold) (selected : Dict Text Text) : List (Text × Text) → Except PyError (Dict Text Text)
  | [] => .ok selected
  | (rawName, rawValue) :: rest =>
    let name := casefold.fold rawName
    if name ≠ "traceparent".codePoints ∧ name ≠ "tracestate".codePoints then selectHeaders casefold selected rest
    else if name ∈ selected.keys then .error (.valueError ("duplicate " ++ shownText name ++ " header"))
    else selectHeaders casefold (selected.set name rawValue) rest

/-- Read trace headers case-insensitively. -/
def traceContextFromHeaders (casefold : Casefold) (headers : Dict Text Text) : Except PyError (Option TraceContext) := do
  let selected ← selectHeaders casefold .empty headers.items
  match selected.get? "traceparent".codePoints with
  | none =>
    if "tracestate".codePoints ∈ selected.keys then .error (.valueError "tracestate requires traceparent") else return none
  | some traceparent => do
    let context ← parseTraceContext traceparent (selected.get? "tracestate".codePoints)
    return some context

section
variable {value : Text} {member : Text × Text} {members : List (Text × Text)}

theorem hexIdentifier_ok {length : Nat} {name : String} : hexIdentifier value length name = .ok () ↔
    value.length = length ∧ isLowerHex value = true ∧ ¬(value ≠ [] ∧ ∀ c ∈ value, c = 0x30) := by
  unfold hexIdentifier
  split
  · rename_i wrong
    refine ⟨fun absurd => (by cases absurd), fun right => ?_⟩
    rcases wrong with long | other | zero
    · exact absurd right.1 long
    · exact absurd (right.2.1.symm.trans other) (by decide)
    · exact absurd zero right.2.2
  · rename_i right
    rw [not_or, not_or, Bool.not_eq_false, not_not] at right
    exact ⟨fun _ => right, fun _ => rfl⟩

theorem tracestateValue_ok : tracestateValue value = .ok () ↔
    (value ≠ [] ∧ value.length ≤ 256 ∧ value.getLast? ≠ some 0x20) ∧ (∀ c ∈ value, isPrintable c = true) ∧
      0x2c ∉ value ∧ 0x3d ∉ value := by
  unfold tracestateValue
  split
  · rename_i wrong
    refine ⟨fun absurd => (by cases absurd), fun right => ?_⟩
    rcases wrong with empty | long | blank
    · exact absurd empty right.1.1
    · exact absurd right.1.2.1 (Nat.not_le.mpr long)
    · exact absurd blank right.1.2.2
  rename_i shape
  rw [not_or, not_or, Nat.not_lt] at shape
  split
  · rename_i other
    refine ⟨fun absurd => (by cases absurd), fun right => absurd (List.all_eq_true.mpr right.2.1) ?_⟩
    rw [other]
    decide
  rename_i printable
  rw [Bool.not_eq_false, List.all_eq_true] at printable
  split
  · rename_i wrong
    refine ⟨fun absurd => (by cases absurd), fun right => ?_⟩
    rcases wrong with comma | equals
    · exact absurd comma right.2.2.1
    · exact absurd equals right.2.2.2
  · rename_i separate
    rw [not_or] at separate
    exact ⟨fun _ => ⟨shape, printable, separate⟩, fun _ => rfl⟩

theorem tracestateMember_ok : tracestateMember member = .ok () ↔
    isTracestateKey member.1 = true ∧ tracestateValue member.2 = .ok () := by
  unfold tracestateMember
  split
  · rename_i wrong
    exact ⟨fun absurd => (by cases absurd), fun right => absurd (right.1.symm.trans wrong) (by decide)⟩
  · rename_i right
    rw [Bool.not_eq_false] at right
    exact ⟨fun passed => ⟨right, passed⟩, fun passed => passed.2⟩

theorem tracestateMembers_ok : tracestateMembers members = .ok () ↔ ∀ member ∈ members, tracestateMember member = .ok () := by
  induction members with
  | nil => exact ⟨fun _ => List.forall_mem_nil _, fun _ => rfl⟩
  | cons member rest ih =>
    rw [tracestateMembers, bind_ok_iff, List.forall_mem_cons, ← ih]
    constructor
    · rintro ⟨⟨⟩, first, later⟩
      exact ⟨first, later⟩
    · rintro ⟨first, later⟩
      exact ⟨(), first, later⟩

theorem validateTracestate_ok : validateTracestate members = .ok () ↔
    members.length ≤ maxTracestateMembers ∧ (∀ member ∈ members, tracestateMember member = .ok ()) ∧
      (members.map Prod.fst).Nodup ∧ (renderedMembers members).length ≤ maxTracestateLength := by
  unfold validateTracestate
  split
  · rename_i many
    exact ⟨fun absurd => (by cases absurd), fun right => absurd right.1 (Nat.not_le.mpr many)⟩
  rename_i few
  rw [bind_ok_iff, ← tracestateMembers_ok]
  constructor
  · rintro ⟨⟨⟩, each, rest⟩
    split at rest
    · cases rest
    rename_i distinct
    split at rest
    · cases rest
    rename_i short
    exact ⟨Nat.not_lt.mp few, each, not_not.mp distinct, Nat.not_lt.mp short⟩
  · rintro ⟨-, each, distinct, short⟩
    exact ⟨(), each, (if_neg (not_not_intro distinct)).trans (if_neg (Nat.not_lt.mpr short))⟩

theorem TraceContext.postInit_ok {traceId parentId : Text} {traceFlags : Int} :
    postInit traceId parentId traceFlags members = .ok () ↔
      hexIdentifier traceId 32 "trace_id" = .ok () ∧ hexIdentifier parentId 16 "parent_id" = .ok () ∧
        (0 ≤ traceFlags ∧ traceFlags ≤ 3) ∧ validateTracestate members = .ok () := by
  unfold postInit
  rw [bind_ok_iff]
  constructor
  · rintro ⟨⟨⟩, first, rest⟩
    obtain ⟨⟨⟩, second, rest⟩ := bind_ok rest
    split at rest
    · cases rest
    · exact ⟨first, second, by omega, rest⟩
  · rintro ⟨first, second, bounds, rest⟩
    exact ⟨(), first, bind_ok_iff.mpr ⟨(), second, (if_neg (by omega)).trans rest⟩⟩

theorem TraceContext.make_self (context : TraceContext) :
    make context.traceId context.parentId context.traceFlags context.tracestate = .ok context := by
  unfold make
  split
  · rfl
  · rename_i failed
    exact absurd (failed.symm.trans context.valid) (fun absurd => (by cases absurd))

theorem keyStart_bounds {c : CodePoint} (start : isKeyStart c = true) :
    (0x30 ≤ c.val ∧ c.val ≤ 0x39) ∨ (0x61 ≤ c.val ∧ c.val ≤ 0x7a) := by
  rw [isKeyStart, Bool.or_eq_true, isDigit_bounds, Bool.and_eq_true, decide_eq_true_iff, decide_eq_true_iff] at start
  exact start

/-- A key begins with a letter or a digit and has no separator in it. -/
theorem key_shape {key : Text} (proper : isTracestateKey key = true) :
    (∃ c rest, key = c :: rest ∧ isKeyStart c = true) ∧ 0x2c ∉ key ∧ 0x3d ∉ key := by
  cases key with
  | nil => cases proper
  | cons c rest =>
    simp only [isTracestateKey, Bool.and_eq_true, List.all_eq_true, Bool.or_eq_true, decide_eq_true_eq] at proper
    obtain ⟨⟨start, -⟩, marks⟩ := proper
    have apart : ∀ mark : CodePoint, isKeyStart mark = false → mark = 0x2c ∨ mark = 0x3d → mark ∉ c :: rest := by
      intro mark other separator member
      rcases List.mem_cons.mp member with rfl | inRest
      · exact absurd (start.symm.trans other) (by decide)
      · have found := marks mark inRest
        rw [other] at found
        rcases separator with rfl | rfl
        · revert found
          decide
        · revert found
          decide
    exact ⟨⟨c, rest, rfl, start⟩, apart 0x2c (by decide) (.inl rfl), apart 0x3d (by decide) (.inr rfl)⟩

/-- A member that is written is not changed by stripping, and falls apart at its first equals sign. -/
theorem renderedMember_parts (proper : tracestateMember member = .ok ()) :
    stripBlanks (renderedMember member) = renderedMember member ∧ 0x2c ∉ renderedMember member ∧
      (renderedMember member).takeWhile (· ≠ 0x3d) = member.1 ∧ ((renderedMember member).dropWhile (· ≠ 0x3d)).tail = member.2 := by
  obtain ⟨isKey, isValue⟩ := tracestateMember_ok.mp proper
  obtain ⟨⟨c, rest, key, start⟩, noComma, noEquals⟩ := key_shape isKey
  obtain ⟨⟨some, -, last⟩, printable, noComma', -⟩ := tracestateValue_ok.mp isValue
  have plain : ∀ d ∈ member.1, decide (d ≠ 0x3d) = true := by
    intro d found
    exact decide_eq_true fun same : d = 0x3d => noEquals (same ▸ found)
  refine ⟨?_, ?_, ?_, ?_⟩
  · have bounds := keyStart_bounds start
    have front : (renderedMember member).dropWhile (fun c => c = 0x20 || c = 0x09) = renderedMember member := by
      rw [renderedMember, key, List.cons_append, List.dropWhile_cons_of_neg]
      rw [Bool.or_eq_true, decide_eq_true_eq, decide_eq_true_eq]
      rintro (rfl | rfl)
      · exact absurd bounds (by decide)
      · exact absurd bounds (by decide)
    unfold stripBlanks
    rw [front, List.rdropWhile_eq_self_iff]
    intro long
    have final : (renderedMember member).getLast long = member.2.getLast some := by
      unfold renderedMember
      rw [List.getLast_append_of_right_ne_nil _ _ (List.cons_ne_nil _ _), List.getLast_cons some]
    have seen := printable _ (List.getLast_mem some)
    rw [List.getLast?_eq_some_getLast some, Ne, Option.some.injEq] at last
    rw [final, Bool.or_eq_true, decide_eq_true_eq, decide_eq_true_eq]
    rintro (blank | tab)
    · exact last blank
    · rw [tab] at seen
      exact absurd seen (by decide)
  · unfold renderedMember
    simp only [List.mem_append, List.mem_cons, not_or]
    exact ⟨noComma, by decide, noComma'⟩
  · rw [renderedMember, List.takeWhile_append_of_pos plain, List.takeWhile_cons_of_neg (by decide), List.append_nil]
  · rw [renderedMember, List.dropWhile_append_of_pos plain, List.dropWhile_cons_of_neg (by decide), List.tail_cons]

theorem parseMembers_rendered (proper : ∀ member ∈ members, tracestateMember member = .ok ()) :
    parseMembers (members.map renderedMember) = .ok members := by
  induction members with
  | nil => rfl
  | cons member rest ih =>
    rw [List.forall_mem_cons] at proper
    obtain ⟨stripped, -, key, value⟩ := renderedMember_parts proper.1
    have some : renderedMember member ≠ [] := List.append_ne_nil_of_right_ne_nil _ (List.cons_ne_nil _ _)
    have equals : ¬0x3d ∉ renderedMember member := not_not_intro (List.mem_append_right _ List.mem_cons_self)
    rw [List.map_cons, parseMembers]
    dsimp only
    rw [stripped, if_neg some, if_neg equals, key, value, proper.1, ih proper.2]
    rfl

/-- The members of a tracestate are read back from their text. -/
theorem parseTracestate_rendered (proper : validateTracestate members = .ok ()) (some : members ≠ []) :
    parseTracestate (renderedMembers members) = .ok members := by
  obtain ⟨few, each, distinct, short⟩ := validateTracestate_ok.mp proper
  have pieces : (renderedMembers members).splitOn 0x2c = members.map renderedMember := by
    refine List.splitOn_intercalate 0x2c (fun piece found => ?_) (fun none => some (List.map_eq_nil_iff.mp none))
    obtain ⟨member, there, rfl⟩ := List.mem_map.mp found
    exact (renderedMember_parts (each member there)).2.1
  unfold parseTracestate
  rw [if_neg (Nat.not_lt.mpr short)]
  dsimp only
  rw [pieces, List.length_map, if_neg (Nat.not_lt.mpr few), parseMembers_rendered each]
  exact if_neg (not_not_intro distinct)

theorem lowerHex_printable (hex : isLowerHex value = true) : ∀ c ∈ value, isPrintable c = true := by
  intro c member
  have each := List.all_eq_true.mp (Bool.and_eq_true_iff.mp hex).2 c member
  simp only [Bool.or_eq_true, Bool.and_eq_true, decide_eq_true_eq, isDigit_bounds] at each
  rw [isPrintable, Bool.and_eq_true, decide_eq_true_iff, decide_eq_true_iff]
  omega

/-- The flags of a context are two digits that are read back. -/
theorem flags_text {flags : Int} (bounds : 0 ≤ flags ∧ flags ≤ 3) :
    (hexByte flags.toNat).length = 2 ∧ isLowerHex (hexByte flags.toNat) = true ∧
      ((readHex (hexByte flags.toNat) &&& 0x03 : Nat) : Int) = flags := by
  have each : ∀ n < 4, (hexByte n).length = 2 ∧ isLowerHex (hexByte n) = true ∧ readHex (hexByte n) &&& 0x03 = n := by decide
  obtain ⟨length, hex, same⟩ := each flags.toNat (by omega)
  refine ⟨length, hex, ?_⟩
  rw [same]
  omega

end

namespace TraceContext
variable (context : TraceContext)

/-- The fields of a traceparent and where they are. -/
theorem renderTraceparent_fields : checkTraceparent context.renderTraceparent = .ok () ∧
    (context.renderTraceparent.drop 3).take 32 = context.traceId ∧
    (context.renderTraceparent.drop 36).take 16 = context.parentId ∧
    (context.renderTraceparent.drop 53).take 2 = hexByte context.traceFlags.toNat := by
  obtain ⟨trace, parent, bounds, -⟩ := postInit_ok.mp context.valid
  obtain ⟨long, hex, -⟩ := hexIdentifier_ok.mp trace
  obtain ⟨long', hex', -⟩ := hexIdentifier_ok.mp parent
  obtain ⟨long'', hex'', -⟩ := flags_text bounds
  have written : context.renderTraceparent =
      0x30 :: 0x30 :: 0x2d :: (context.traceId ++ 0x2d :: (context.parentId ++ 0x2d :: hexByte context.traceFlags.toNat)) := by
    simp only [renderTraceparent, List.append_assoc, List.cons_append, List.nil_append]
    rfl
  have afterTrace : context.renderTraceparent.drop 35 = 0x2d :: (context.parentId ++ 0x2d :: hexByte context.traceFlags.toNat) := by
    rw [written]
    exact List.drop_left' long
  have afterParent : context.renderTraceparent.drop 52 = 0x2d :: hexByte context.traceFlags.toNat := by
    have further : context.renderTraceparent.drop 52 = (context.renderTraceparent.drop 35).drop 17 := by rw [List.drop_drop]
    rw [further, afterTrace]
    exact List.drop_left' long'
  have length : context.renderTraceparent.length = 55 := by
    rw [written]
    simp only [List.length_cons, List.length_append]
    omega
  have printable : context.renderTraceparent.all isPrintable = true := by
    rw [List.all_eq_true, written]
    simp only [List.mem_cons, List.mem_append]
    rintro c (rfl | rfl | rfl | inTrace | rfl | inParent | rfl | inFlags)
    · rfl
    · rfl
    · rfl
    · exact lowerHex_printable hex c inTrace
    · rfl
    · exact lowerHex_printable hex' c inParent
    · rfl
    · exact lowerHex_printable hex'' c inFlags
  refine ⟨?_, ?_, ?_, ?_⟩
  · have first : context.renderTraceparent[2]? = some 0x2d := by
      rw [written]
      rfl
    have second : context.renderTraceparent[35]? = some 0x2d := by
      rw [← List.head?_drop, afterTrace]
      rfl
    have third : context.renderTraceparent[52]? = some 0x2d := by
      rw [← List.head?_drop, afterParent]
      rfl
    have version : context.renderTraceparent.take 2 = [0x30, 0x30] := by
      rw [written]
      rfl
    unfold checkTraceparent
    rw [length, printable, first, second, third]
    dsimp only
    rw [version]
    rfl
  · rw [written]
    exact List.take_left' long
  · have field : context.renderTraceparent.drop 36 = (context.renderTraceparent.drop 35).drop 1 := by rw [List.drop_drop]
    rw [field, afterTrace]
    exact List.take_left' long'
  · have field : context.renderTraceparent.drop 53 = (context.renderTraceparent.drop 52).drop 1 := by rw [List.drop_drop]
    rw [field, afterParent]
    exact List.take_of_length_le long''.le

/-- Headers with the fields of a context are those of that context. -/
theorem parse_fields {traceparent : Text} {tracestate : Option Text} (checked : checkTraceparent traceparent = .ok ())
    (trace : (traceparent.drop 3).take 32 = context.traceId) (parent : (traceparent.drop 36).take 16 = context.parentId)
    (hex : isLowerHex ((traceparent.drop 53).take 2) = true)
    (flags : ((readHex ((traceparent.drop 53).take 2) &&& 0x03 : Nat) : Int) = context.traceFlags)
    (members : optionalTracestate tracestate = .ok context.tracestate) :
    parseTraceContext traceparent tracestate = .ok context := by
  obtain ⟨isTrace, isParent, -⟩ := postInit_ok.mp context.valid
  have given : ¬(isLowerHex ((traceparent.drop 53).take 2) = false) := by
    rw [hex]
    decide
  unfold parseTraceContext
  rw [checked]
  change (hexIdentifier _ _ _ >>= _) = _
  rw [trace, parent, isTrace]
  change (hexIdentifier _ _ _ >>= _) = _
  rw [isParent]
  change (if _ then _ else _) = _
  rw [if_neg given, members]
  change make _ _ _ _ = _
  rw [flags]
  exact context.make_self

/-- The two headers that a context is rendered to are those of that context. -/
theorem parse_rendered : parseTraceContext context.renderTraceparent context.renderTracestate = .ok context := by
  obtain ⟨checked, trace, parent, flags⟩ := context.renderTraceparent_fields
  obtain ⟨-, -, bounds, proper⟩ := postInit_ok.mp context.valid
  obtain ⟨-, hex, read⟩ := flags_text bounds
  have members : optionalTracestate context.renderTracestate = .ok context.tracestate := by
    unfold renderTracestate
    split
    · rename_i none
      rw [none]
      rfl
    · rename_i some
      exact parseTracestate_rendered proper some
  exact context.parse_fields checked trace parent (flags ▸ hex) (flags ▸ read) members

end TraceContext

section
variable {casefold : Casefold} {selected : Dict Text Text} {name value : Text} {rest : List (Text × Text)}

theorem selectHeaders_new (known : name = "traceparent".codePoints ∨ name = "tracestate".codePoints) (absent : name ∉ selected.keys) :
    selectHeaders casefold selected ((name, value) :: rest) = selectHeaders casefold (selected.set name value) rest := by
  have folded : casefold.fold name = name := by
    rcases known with rfl | rfl
    · exact casefold.traceparent
    · exact casefold.tracestate
  have chosen : ¬(name ≠ "traceparent".codePoints ∧ name ≠ "tracestate".codePoints) := by
    rintro ⟨first, second⟩
    exact known.elim first second
  rw [selectHeaders, folded, if_neg chosen, if_neg absent]

end

/-- The headers of a context are selected as they are. -/
theorem selectHeaders_toHeaders (casefold : Casefold) (context : TraceContext) :
    selectHeaders casefold .empty context.toHeaders.items = .ok context.toHeaders := by
  have apart : "tracestate".codePoints ≠ "traceparent".codePoints := by decide
  have items : ∀ text : Text, (Dict.empty.set "traceparent".codePoints text).items = [("traceparent".codePoints, text)] := fun text =>
    Dict.items_set_of_absent List.not_mem_nil
  have new : ∀ text : Text, "tracestate".codePoints ∉ (Dict.empty.set "traceparent".codePoints text).keys := fun text => by
    rw [Dict.keys, items]
    exact fun member => apart (List.mem_singleton.mp member)
  unfold TraceContext.toHeaders
  cases context.renderTracestate with
  | none =>
    dsimp only
    rw [items, selectHeaders_new (.inl rfl) List.not_mem_nil]
    rfl
  | some tracestate =>
    dsimp only
    rw [Dict.items_set_of_absent (new _), items, List.singleton_append, selectHeaders_new (.inl rfl) List.not_mem_nil,
      selectHeaders_new (.inr rfl) (new _)]
    rfl

theorem get?_toHeaders (context : TraceContext) :
    context.toHeaders.get? "traceparent".codePoints = some context.renderTraceparent ∧
      context.toHeaders.get? "tracestate".codePoints = context.renderTracestate := by
  have apart : "tracestate".codePoints ≠ "traceparent".codePoints := by decide
  unfold TraceContext.toHeaders
  cases context.renderTracestate with
  | none =>
    dsimp only
    rw [Dict.get?_set_self, Dict.get?_set_of_ne apart]
    exact ⟨rfl, rfl⟩
  | some tracestate =>
    dsimp only
    rw [Dict.get?_set_self, Dict.get?_set_of_ne apart.symm, Dict.get?_set_self]
    exact ⟨rfl, rfl⟩

theorem headers_rendered (casefold : Casefold) (context : TraceContext) :
    traceContextFromHeaders casefold context.toHeaders = .ok (some context) := by
  obtain ⟨traceparent, tracestate⟩ := get?_toHeaders context
  unfold traceContextFromHeaders
  rw [selectHeaders_toHeaders]
  change (match context.toHeaders.get? _ with | none => _ | some _ => _) = _
  rw [traceparent, tracestate]
  dsimp only
  rw [context.parse_rendered]
  rfl

/-- A context comes back from what it is rendered to, field by field or as headers; so does one that was parsed, from
whatever version and with whatever flags. -/
theorem trace_context_round_trip (casefold : Casefold) (context : TraceContext) :
    parseTraceContext context.renderTraceparent context.renderTracestate = .ok context ∧
      traceContextFromHeaders casefold context.toHeaders = .ok (some context) ∧
      ∀ traceparent tracestate parsed, parseTraceContext traceparent tracestate = .ok parsed →
        parseTraceContext parsed.renderTraceparent parsed.renderTracestate = .ok parsed :=
  ⟨context.parse_rendered, headers_rendered casefold context, fun _ _ parsed _ => parsed.parse_rendered⟩

theorem hexIdentifier_replicate {c : CodePoint} {length : Nat} {name : String} (hex : isLowerHex (List.replicate length c) = true)
    (other : c ≠ 0x30) (positive : length ≠ 0) : hexIdentifier (List.replicate length c) length name = .ok () :=
  hexIdentifier_ok.mpr ⟨List.length_replicate, hex, fun zero => other (zero.2 c (List.mem_replicate.mpr ⟨positive, rfl⟩))⟩

/-- A later version with a field more and all flags set. -/
def laterTraceparent : Text :=
  "cc-".codePoints ++ List.replicate 32 0x61 ++ [0x2d] ++ List.replicate 16 0x62 ++ "-ff-more".codePoints

def laterContext : TraceContext where
  traceId := List.replicate 32 0x61
  parentId := List.replicate 16 0x62
  traceFlags := 3
  tracestate := [("a".codePoints, "1".codePoints), ("b".codePoints, " 2".codePoints)]
  valid := TraceContext.postInit_ok.mpr ⟨hexIdentifier_replicate (by rfl) (by decide) (by decide),
    hexIdentifier_replicate (by rfl) (by decide) (by decide), by decide, by decide +kernel⟩

theorem later_version_round_trip (casefold : Casefold) :
    parseTraceContext laterTraceparent (some "a=1 ,, b= 2".codePoints) = .ok laterContext ∧
      parseTraceContext laterContext.renderTraceparent laterContext.renderTracestate = .ok laterContext := by
  have checked : checkTraceparent laterTraceparent = .ok () := by decide +kernel
  have members : optionalTracestate (some "a=1 ,, b= 2".codePoints) = .ok laterContext.tracestate := by decide +kernel
  have parsed : parseTraceContext laterTraceparent (some "a=1 ,, b= 2".codePoints) = .ok laterContext :=
    laterContext.parse_fields checked (by rfl) (by rfl) (by rfl) (by rfl) members
  exact ⟨parsed, (trace_context_round_trip casefold laterContext).2.2 _ _ _ parsed⟩

end Pytitect
