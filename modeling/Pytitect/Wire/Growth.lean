import Pytitect.Wire.Written

namespace Pytitect.Wire
open JsonText Text

/-- The part of `decode_wire_stream` before the document is made: a value, and nothing but blanks behind it. -/
def parsedValue (limits : Limits) (text : Text) (ending : Ending) : Except WireError ExactTree := do
  let (value, reading) ← readValue ending limits (limits.maxJsonDepth + 2) 0 ⟨text, 0⟩
  let rest ← whitespace ending reading.rest
  let next ← peek ending rest
  if next.isSome then .error .malformed else return value

/-- The value that the parser inside `decode_wire_stream` yields for the chunks. -/
def streamValue (chunks : List (List UInt8)) (limits : Limits) : Except WireError ExactTree :=
  parsedValue limits (decodeChunks limits.maxBodyBytes .idle 0 chunks).1 (decodeChunks limits.maxBodyBytes .idle 0 chunks).2

/-- The document is made of what is parsed. -/
theorem parseStream_eq (limits : Limits) (text : Text) (ending : Ending) :
    parseStream limits text ending = parsedValue limits text ending >>= fun value => WireDocument.make value limits := by
  unfold parseStream parsedValue
  cases readValue ending limits (limits.maxJsonDepth + 2) 0 ⟨text, 0⟩ with
  | error error => rfl
  | ok read =>
    obtain ⟨value, reading⟩ := read
    change (whitespace ending reading.rest >>= _) = (whitespace ending reading.rest >>= _) >>= _
    cases whitespace ending reading.rest with
    | error error => rfl
    | ok rest =>
      change (peek ending rest >>= _) = (peek ending rest >>= _) >>= _
      cases peek ending rest with
      | error error => rfl
      | ok next =>
        cases next with
        | none => rfl
        | some c => rfl

/-- What is parsed stands in the text, within the limits. -/
theorem parsedValue_ok {limits : Limits} {text : Text} {ending : Ending} {value : ExactTree} (parsed : parsedValue limits text ending = .ok value) :
    ending = .finished ∧ ∃ source, DocumentText source text ∧ source.items ≤ limits.maxJsonItems ∧ source.depth ≤ limits.maxJsonDepth ∧
      (source.Strings fun text => text.length ≤ limits.maxStringLength) ∧ value = source.denote := by
  obtain ⟨⟨value', reading⟩, read, parsed⟩ := bind_ok parsed
  obtain ⟨rest, spaced, parsed⟩ := bind_ok parsed
  obtain ⟨next, peeked, parsed⟩ := bind_ok parsed
  obtain ⟨source, start, rfl, blank, there, reads, bounded⟩ := readValue_ok _ _ _ _ _ read
  have after := whitespace_ok spaced
  have items := reads.charged ▸ reads.paid
  have deep := bounded.depth
  rw [Nat.zero_add] at items deep
  rcases peek_ok peeked with ⟨c, tail, some, -⟩ | ⟨none, empty, ended⟩
  · rw [some] at parsed
    cases parsed
  · rw [empty] at after
    rw [none] at parsed
    cases parsed
    exact ⟨ended, source, ⟨start, _, blank, there, after⟩, items, deep, bounded.strings, rfl⟩

namespace ExactTree

/-- Sorted members stay as they are. -/
theorem canonical_canonical (tree : ExactTree) : tree.canonical.canonical = tree.canonical := by
  induction tree using ExactTree.induct with
  | null => rfl
  | bool value => rfl
  | number value => rfl
  | str value => rfl
  | array values ih =>
    have same : values.map (canonical ∘ canonical) = values.map canonical := List.map_congr_left ih
    rw [canonical, canonical, canonicalAll_eq, canonicalAll_eq, List.map_map, same]
  | object members ih =>
    have sorted : arranged (arranged members) = arranged members := List.Pairwise.insertionSort_eq arranged_sorted
    rw [canonical_object, canonical_object, arranged_map, sorted, List.map_map]
    refine congrArg ExactTree.object (List.map_congr_left fun member found => ?_)
    exact Prod.ext rfl (ih member (mem_arranged.mp found))

end ExactTree

/-- The canonical form is written as the value is. -/
theorem rendered_canonical (tree : ExactTree) : rendered tree.canonical = rendered tree := by
  rw [rendered_eq, rendered_eq, ExactTree.canonical_canonical]

/-- A value in a text is written in no more bytes than the text has. -/
theorem rendered_shorter {source : ExactTree} {text : Text} (found : DocumentText source text) :
    (utf8 (rendered source.denote)).length ≤ (utf8 text).length := by
  obtain ⟨start, rest, blank, there, -⟩ := found
  have takes := ((valueText_takes there).blank blank).paid
  have lighter := weight_denote_le source
  rw [length_rendered]
  omega

end Pytitect.Wire
