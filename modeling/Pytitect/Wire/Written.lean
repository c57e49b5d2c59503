import Pytitect.Wire.RoundTrip

namespace Pytitect.Wire
open JsonText

/-- Texts with a comma between each two. -/
def joined : List Text → Text
  | [] => []
  | [entry] => entry
  | entry :: rest => entry ++ comma :: joined rest

mutual

/-- The text of a value without blanks, with the members as they are listed. -/
def written : ExactTree → Text
  | .null => nullWord
  | .bool true => trueWord
  | .bool false => falseWord
  | .number value => value.token
  | .str value => dumps value
  | .array values => openArray :: (joined (writtenAll values) ++ [closeArray])
  | .object members => openObject :: (joined (writtenMembers members) ++ [closeObject])

def writtenAll : List ExactTree → List Text
  | [] => []
  | value :: rest => written value :: writtenAll rest

def writtenMembers : List (Text × ExactTree) → List Text
  | [] => []
  | (key, value) :: rest => (dumps key ++ colon :: written value) :: writtenMembers rest

end

theorem writtenAll_eq {values : List ExactTree} : writtenAll values = values.map written := by
  induction values with
  | nil => rfl
  | cons value rest ih => rw [writtenAll, ih, List.map_cons]

/-- The text of a member. -/
def memberWritten (member : Text × ExactTree) : Text := dumps member.1 ++ colon :: written member.2

theorem writtenMembers_eq {members : List (Text × ExactTree)} : writtenMembers members = members.map memberWritten := by
  induction members with
  | nil => rfl
  | cons member rest ih => rw [writtenMembers, ih, List.map_cons, memberWritten]

theorem joined_flatten (entries : List (List Text)) : (separate entries).flatten = joined (entries.map List.flatten) := by
  induction entries with
  | nil => rfl
  | cons entry rest ih =>
    cases rest with
    | nil => rfl
    | cons next rest =>
      have unfolded : separate (entry :: next :: rest) = entry ++ [comma] :: separate (next :: rest) := rfl
      rw [unfolded, List.flatten_append, List.flatten_cons, ih]
      rfl

/-- A document is written in the order of the keys. -/
theorem rendered_eq (tree : ExactTree) : rendered tree = written tree.canonical := by
  unfold rendered
  induction tree using ExactTree.induct with
  | null => rfl
  | bool value => cases value <;> rfl
  | number value => rw [pieces, List.flatten_singleton, ExactTree.canonical, written]
  | str value => rw [pieces, List.flatten_singleton, ExactTree.canonical, written]
  | array values ih =>
    have same : values.map (List.flatten ∘ pieces) = values.map (written ∘ ExactTree.canonical) := List.map_congr_left ih
    rw [pieces, piecesAll_eq, List.flatten_cons, List.flatten_append, joined_flatten, List.map_map, same,
      ExactTree.canonical, ExactTree.canonicalAll_eq, written, writtenAll_eq, List.map_map]
    rfl
  | object members ih =>
    have same : (arranged members).map (List.flatten ∘ memberPieces) =
        (arranged members).map (memberWritten ∘ fun member => (member.1, member.2.canonical)) := by
      refine List.map_congr_left fun member found => ?_
      simp only [Function.comp_apply, memberPieces, memberWritten, List.flatten_cons, ih member (mem_arranged.mp found)]
      rfl
    rw [pieces_object, List.flatten_cons, List.flatten_append, joined_flatten, List.map_map, same,
      ExactTree.canonical_object, written, writtenMembers_eq, List.map_map]
    rfl

theorem length_joined (entries : List Text) :
    (Text.utf8 (joined entries)).length + 1 = max 1 (entries.map fun entry => (Text.utf8 entry).length + 1).sum := by
  have split := length_separate (entries.map fun entry => [entry])
  rw [joined_flatten, List.map_map, List.map_map] at split
  have whole : entries.map (List.flatten ∘ fun entry => [entry]) = entries := by
    simp [Function.comp_def]
  rw [whole] at split
  simpa [Function.comp_def] using split

theorem length_written (tree : ExactTree) : (Text.utf8 (written tree)).length = weight tree := by
  have opening : ∀ c : CodePoint, c = openArray ∨ c = closeArray ∨ c = openObject ∨ c = closeObject ∨ c = colon →
      c.utf8.length = 1 := by
    rintro c (rfl | rfl | rfl | rfl | rfl) <;> rfl
  have closing : ∀ c : CodePoint, (Text.utf8 [c]).length = c.utf8.length := by
    intro c
    rw [Text.length_utf8_cons]
    rfl
  induction tree using ExactTree.induct with
  | null => rfl
  | bool value => cases value <;> rfl
  | number value => rw [written, weight]
  | str value => rw [written, weight]
  | array values ih =>
    have same : values.map ((fun entry => (Text.utf8 entry).length + 1) ∘ written) =
        values.map fun value => weight value + 1 :=
      List.map_congr_left fun value member => congrArg (· + 1) (ih value member)
    have body := length_joined (values.map written)
    rw [List.map_map, same] at body
    rw [written, Text.length_utf8_cons, Text.length_utf8_append, closing, opening openArray (by simp),
      opening closeArray (by simp), writtenAll_eq, body, weight, weightAll_eq]
  | object members ih =>
    have same : members.map ((fun entry => (Text.utf8 entry).length + 1) ∘ memberWritten) = members.map memberWeight := by
      refine List.map_congr_left fun member found => ?_
      simp only [Function.comp_apply, memberWritten, memberWeight, Text.length_utf8_append, Text.length_utf8_cons,
        opening colon (by simp), ih member found]
      omega
    have body := length_joined (members.map memberWritten)
    rw [List.map_map, same] at body
    rw [written, Text.length_utf8_cons, Text.length_utf8_append, closing, opening openObject (by simp),
      opening closeObject (by simp), writtenMembers_eq, body, weight, weightMembers_eq]

theorem joined_text {β : Type} {Entry : β → Text → Text → Prop} {close : CodePoint} {write : β → Text} {entries : List β}
    (each : ∀ entry ∈ entries, ∀ rest, Entry entry (write entry ++ rest) rest) (some : entries ≠ []) (rest : Text) :
    Separated Entry close entries (joined (entries.map write) ++ close :: rest) rest := by
  have texts : Separated Entry close entries ((separate (entries.map fun entry => [write entry])).flatten ++ close :: rest)
      rest := separate_text (fun entry member rest => by simpa using each entry member rest) some rest
  rw [joined_flatten, List.map_map] at texts
  simpa [Function.comp_def] using texts

/-- What is written is a text of the value. -/
theorem written_text (tree : ExactTree) (rest : Text) : ValueText tree (written tree ++ rest) rest := by
  induction tree using ExactTree.induct generalizing rest with
  | null => exact .null
  | bool value =>
    cases value with
    | true => exact .true
    | false => exact .false
  | number value => exact .number (isNumber_iff.mp value.proper)
  | str value => exact .str (dumps_text value rest)
  | array values ih =>
    rw [written, writtenAll_eq, List.cons_append, List.append_assoc]
    by_cases some : values = []
    · rw [some]
      exact .emptyArray .none
    · exact .array (joined_text ih some rest)
  | object members ih =>
    rw [written, writtenMembers_eq, List.cons_append, List.append_assoc]
    by_cases some : members = []
    · rw [some]
      exact .emptyObject .none
    · refine .object (joined_text (fun member found rest => ?_) some rest)
      rw [memberWritten, List.append_assoc]
      exact .pair (dumps_text member.1 _) .none .none (ih member found rest)

theorem weight_canonical (tree : ExactTree) : weight tree.canonical = weight tree := by
  rw [← length_written, ← rendered_eq, length_rendered]

theorem plain_joined {entries : List Text} (all : ∀ entry ∈ entries, Plain entry) : Plain (joined entries) := by
  have plain : Plain (separate (entries.map fun entry => [entry])).flatten := plain_separate (by
    rw [List.forall_mem_map]
    simpa using all)
  rw [joined_flatten, List.map_map] at plain
  simpa [Function.comp_def] using plain

/-- What is written has a UTF-8 form exactly when the strings have one. -/
theorem plain_written {tree : ExactTree} : Plain (written tree) ↔ tree.Strings Plain := by
  constructor
  · intro plain
    have found := written_text tree []
    rw [List.append_nil] at found
    exact valueText_plain found plain
  intro strings
  induction tree using ExactTree.induct with
  | null => rfl
  | bool value => cases value <;> rfl
  | number value => exact plain_of_all fun c member => number_scalar (number_signs (isNumber_iff.mp value.proper) c member)
  | str value => exact plain_dumps strings
  | array values ih =>
    rw [ExactTree.Strings, ExactTree.stringsAll_iff] at strings
    rw [written, writtenAll_eq]
    refine plain_cons.mpr ⟨rfl, plain_append.mpr ⟨plain_joined ?_, rfl⟩⟩
    rw [List.forall_mem_map]
    exact fun value member => ih value member (strings value member)
  | object members ih =>
    rw [ExactTree.Strings, ExactTree.stringsMembers_iff] at strings
    rw [written, writtenMembers_eq]
    refine plain_cons.mpr ⟨rfl, plain_append.mpr ⟨plain_joined ?_, rfl⟩⟩
    rw [List.forall_mem_map]
    intro member found
    exact plain_append.mpr ⟨plain_dumps (strings member found).1,
      plain_cons.mpr ⟨rfl, ih member found (strings member found).2⟩⟩

end Pytitect.Wire
