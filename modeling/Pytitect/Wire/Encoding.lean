import Pytitect.Wire.Document

namespace Pytitect.Wire
open JsonText Text

section
variable {limits : Limits} {output : List UInt8}

theorem encodeLoop_ok {texts : List Text} {bytes : List UInt8} (passed : encodeLoop limits output texts = .ok bytes) :
    texts.flatten.any CodePoint.isSurrogate = false ∧ bytes = output ++ utf8 texts.flatten ∧
      (output.length ≤ limits.maxBodyBytes → bytes.length ≤ limits.maxBodyBytes) := by
  induction texts generalizing output with
  | nil =>
    cases passed
    exact ⟨rfl, (List.append_nil _).symm, id⟩
  | cons piece rest ih =>
    unfold encodeLoop at passed
    split at passed
    · cases passed
    split at passed
    · cases passed
    rename_i encoded found
    split at passed
    · cases passed
    rename_i fits
    obtain ⟨plain, rfl⟩ := encode_iff.mp found
    obtain ⟨later, rfl, bound⟩ := ih passed
    refine ⟨?_, ?_, fun below => bound ?_⟩
    · rw [List.flatten_cons, List.any_append, plain, later]
      rfl
    · rw [List.flatten_cons, utf8, utf8, utf8, List.flatMap_append, List.append_assoc]
    · rw [List.length_append]
      omega

theorem encodeLoop_passes {texts : List Text} (plain : texts.flatten.any CodePoint.isSurrogate = false)
    (fits : output.length + (utf8 texts.flatten).length ≤ limits.maxBodyBytes) :
    encodeLoop limits output texts = .ok (output ++ utf8 texts.flatten) := by
  induction texts generalizing output with
  | nil => rw [encodeLoop, List.flatten_nil, utf8, List.flatMap_nil, List.append_nil]
  | cons piece rest ih =>
    rw [List.flatten_cons, List.any_append, Bool.or_eq_false_iff] at plain
    rw [List.flatten_cons, length_utf8_append] at fits
    have found : piece.encode = some (utf8 piece) := encode_iff.mpr ⟨plain.1, rfl⟩
    have short := length_le_utf8 piece
    have room : (output ++ utf8 piece).length + (utf8 rest.flatten).length ≤ limits.maxBodyBytes := by
      rw [List.length_append]
      omega
    have later := ih plain.2 room
    rw [encodeLoop, if_neg (by omega), found]
    dsimp only
    rw [if_neg (by omega), later, List.flatten_cons, List.append_assoc, utf8, utf8, utf8, List.flatMap_append]

end

/-- A document is encoded exactly when its text has a UTF-8 form within the limit. -/
theorem WireDocument.encode_iff {document : WireDocument} {bytes : List UInt8} :
    document.encode = .ok bytes ↔
      Text.encode (pieces document.value).flatten = some bytes ∧ bytes.length ≤ document.limits.maxBodyBytes := by
  rw [Text.encode_iff]
  constructor
  · intro passed
    obtain ⟨plain, same, bound⟩ := encodeLoop_ok passed
    exact ⟨⟨plain, same⟩, bound (Nat.zero_le _)⟩
  · rintro ⟨⟨plain, rfl⟩, bound⟩
    exact encodeLoop_passes plain (by simpa using bound)

/-- The text of a document. -/
def rendered (tree : ExactTree) : Text := (pieces tree).flatten

section
variable {tree : ExactTree} {limits : Limits} {document : WireDocument}

/-- What `WireDocument` accepts. -/
theorem WireDocument.make_iff (proper : tree.Proper) :
    WireDocument.make tree limits = .ok document ↔
      document = ⟨tree, limits⟩ ∧ Within limits tree 0 0 ∧ ∃ bytes, document.encode = .ok bytes := by
  constructor
  · intro made
    obtain ⟨frozen, kept, made⟩ := bind_ok made
    obtain ⟨bytes, encoded, made⟩ := bind_ok made
    cases made
    obtain ⟨rfl, within⟩ := (freeze_iff proper).mp kept
    exact ⟨rfl, within, bytes, encoded⟩
  · rintro ⟨rfl, within, bytes, encoded⟩
    rw [WireDocument.make, (freeze_iff proper).mpr ⟨rfl, within⟩]
    change (WireDocument.encode ⟨tree, limits⟩ >>= _) = _
    rw [encoded]
    rfl

end

mutual

/-- How many bytes a value takes without blanks and with the shortest escapes. Every
entry of a container is charged with the comma or the bracket behind it. -/
def weight : ExactTree → Nat
  | .null => (utf8 nullWord).length
  | .bool true => (utf8 trueWord).length
  | .bool false => (utf8 falseWord).length
  | .number value => (utf8 value.token).length
  | .str value => (utf8 (dumps value)).length
  | .array values => 1 + max 1 (weightAll values)
  | .object members => 1 + max 1 (weightMembers members)

def weightAll : List ExactTree → Nat
  | [] => 0
  | value :: rest => weight value + 1 + weightAll rest

def weightMembers : List (Text × ExactTree) → Nat
  | [] => 0
  | (key, value) :: rest => (utf8 (dumps key)).length + 1 + weight value + 1 + weightMembers rest

end

theorem weightAll_eq {values : List ExactTree} : weightAll values = (values.map fun value => weight value + 1).sum := by
  induction values with
  | nil => rfl
  | cons value rest ih => rw [weightAll, ih, List.map_cons, List.sum_cons]

/-- What a member costs with its colon and the comma or bracket behind it. -/
def memberWeight (member : Text × ExactTree) : Nat := (utf8 (dumps member.1)).length + 1 + weight member.2 + 1

theorem weightMembers_eq {members : List (Text × ExactTree)} : weightMembers members = (members.map memberWeight).sum := by
  induction members with
  | nil => rfl
  | cons member rest ih => rw [weightMembers, ih, List.map_cons, List.sum_cons, memberWeight]

theorem length_separate (entries : List (List Text)) :
    (utf8 (separate entries).flatten).length + 1 =
      max 1 (entries.map fun entry => (utf8 entry.flatten).length + 1).sum := by
  induction entries with
  | nil => rfl
  | cons entry rest ih =>
    cases rest with
    | nil =>
      rw [separate, List.map_cons, List.map_nil, List.sum_cons, List.sum_nil]
      omega
    | cons next rest =>
      have one : (utf8 [comma]).length = 1 := rfl
      have unfolded : separate (entry :: next :: rest) = entry ++ [comma] :: separate (next :: rest) := rfl
      rw [unfolded, List.flatten_append, List.flatten_cons, length_utf8_append, length_utf8_append, one]
      rw [List.map_cons, List.sum_cons] at ih
      rw [List.map_cons, List.sum_cons, List.map_cons, List.sum_cons]
      omega

theorem piecesAll_eq {values : List ExactTree} : piecesAll values = values.map pieces := by
  induction values with
  | nil => rfl
  | cons value rest ih => rw [piecesAll, ih, List.map_cons]

theorem piecesMembers_eq {members : List (Text × ExactTree)} :
    piecesMembers members = members.map fun member => (member.1, pieces member.2) := by
  induction members with
  | nil => rfl
  | cons member rest ih => rw [piecesMembers, ih, List.map_cons]

/-- The pieces of a member. -/
def memberPieces (member : Text × ExactTree) : List Text := dumps member.1 :: [colon] :: pieces member.2

theorem pieces_object {members : List (Text × ExactTree)} : pieces (.object members) =
    [openObject] :: (separate ((arranged members).map memberPieces) ++ [[closeObject]]) := by
  rw [pieces, piecesMembers_eq, arranged_map, List.map_map]
  rfl

theorem length_rendered (tree : ExactTree) : (utf8 (rendered tree)).length = weight tree := by
  have opening : ∀ c : CodePoint, c = openArray ∨ c = closeArray ∨ c = openObject ∨ c = closeObject ∨ c = colon →
      (utf8 [c]).length = 1 := by
    rintro c (rfl | rfl | rfl | rfl | rfl) <;> rfl
  unfold rendered
  induction tree using ExactTree.induct with
  | null => rfl
  | bool value => cases value <;> rfl
  | number value => rw [pieces, List.flatten_singleton, weight]
  | str value => rw [pieces, List.flatten_singleton, weight]
  | array values ih =>
    rw [pieces, List.flatten_cons, List.flatten_append, List.flatten_singleton, length_utf8_append, length_utf8_append,
      opening openArray (by simp), opening closeArray (by simp), length_separate, piecesAll_eq, weight, weightAll_eq,
      List.map_map]
    have same : values.map ((fun entry => (utf8 entry.flatten).length + 1) ∘ pieces) =
        values.map fun value => weight value + 1 :=
      List.map_congr_left fun value member => congrArg (· + 1) (ih value member)
    rw [same]
  | object members ih =>
    rw [pieces_object, List.flatten_cons, List.flatten_append, List.flatten_singleton, length_utf8_append,
      length_utf8_append, opening openObject (by simp), opening closeObject (by simp), length_separate, weight,
      weightMembers_eq, List.map_map]
    have same : (arranged members).map ((fun entry => (utf8 entry.flatten).length + 1) ∘ memberPieces) =
        (arranged members).map memberWeight := by
      refine List.map_congr_left fun member found => ?_
      have inner := ih member (mem_arranged.mp found)
      simp only [Function.comp_apply, memberPieces, memberWeight, List.flatten_cons, length_utf8_append,
        opening colon (by simp), inner]
      omega
    rw [same, (arranged_perm.map memberWeight).sum_nat]

/-- Of equal members only the last is written. -/
theorem weight_denote_le (tree : ExactTree) : weight tree.denote ≤ weight tree := by
  induction tree using ExactTree.induct with
  | null => exact le_rfl
  | bool value => exact le_rfl
  | number value => exact le_rfl
  | str value => exact le_rfl
  | array values ih =>
    rw [ExactTree.denote, weight, weight, ExactTree.denoteAll_eq, weightAll_eq, weightAll_eq, List.map_map]
    have less : (values.map ((fun value => weight value + 1) ∘ ExactTree.denote)).sum ≤
        (values.map fun value => weight value + 1).sum :=
      List.sum_le_sum fun value member => Nat.add_le_add_right (ih value member) 1
    omega
  | object members ih =>
    rw [ExactTree.denote, weight, weight, weightMembers_eq, weightMembers_eq]
    have each : ∀ member ∈ members, memberWeight (member.1, member.2.denote) ≤ memberWeight member := by
      intro member found
      have inner := ih member found
      simp only [memberWeight]
      omega
    have less := ExactTree.sum_denoteMembers_le .empty memberWeight each
    rw [Dict.empty, List.map_nil, List.sum_nil, Nat.zero_add] at less
    change 1 + max 1 ((ExactTree.denoteMembers .empty members).items.map memberWeight).sum ≤ _
    rw [Dict.empty]
    omega

end Pytitect.Wire
