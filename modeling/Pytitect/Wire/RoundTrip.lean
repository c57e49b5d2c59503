import Pytitect.Wire.Termination

namespace Pytitect.Wire
open JsonText Text

/-- The stream ends by itself exactly when all bytes are UTF-8 and not too many. -/
theorem decodeChunks_finished {maximum size : Nat} {decoder : Utf8Decoder} {chunks : List (List UInt8)} {text : Text}
    (room : size ≤ maximum) : decodeChunks maximum decoder size chunks = (text, .finished) ↔
      decoder.run chunks.flatten = some (text, .idle) ∧ size + chunks.flatten.length ≤ maximum := by
  induction chunks generalizing decoder size text with
  | nil =>
    rw [decodeChunks, List.flatten_nil, Utf8Decoder.run, Option.some.injEq, Prod.mk.injEq, Prod.mk.injEq, List.length_nil]
    by_cases idle : decoder = .idle
    · rw [if_pos idle]
      exact ⟨fun same => ⟨⟨same.1, idle⟩, room⟩, fun same => ⟨same.1.1, rfl⟩⟩
    · rw [if_neg idle]
      exact ⟨fun same => (by cases same.2), fun same => absurd same.1.2 idle⟩
  | cons chunk rest ih =>
    rw [decodeChunks, List.flatten_cons, Utf8Decoder.run_append, List.length_append]
    by_cases long : maximum < size + chunk.length
    · rw [if_pos long]
      refine ⟨fun same => (by cases same), fun same => ?_⟩
      have within := same.2
      omega
    rw [if_neg long]
    cases ran : decoder.run chunk with
    | none => exact ⟨fun same => (by cases same), fun same => (by cases same.1)⟩
    | some decoded =>
      obtain ⟨first, next⟩ := decoded
      have later : ∀ tail, decodeChunks maximum next (size + chunk.length) rest = (tail, .finished) ↔ _ := fun tail =>
        ih (Nat.not_lt.mp long)
      rw [Option.bind_some, Option.map_eq_some_iff]
      constructor
      · intro same
        obtain ⟨rfl, ended⟩ := Prod.mk.inj same
        obtain ⟨run, bound⟩ := (later _).mp (Prod.ext rfl ended)
        exact ⟨⟨_, run, rfl⟩, by omega⟩
      · rintro ⟨⟨⟨tail, last⟩, run, same⟩, bound⟩
        cases same
        have found := (later tail).mpr ⟨run, by omega⟩
        dsimp only
        rw [found]

theorem document_make {limits : Limits} {source : ExactTree} {text : Text} (plain : Plain text)
    (found : DocumentText source text) (short : (utf8 text).length ≤ limits.maxBodyBytes)
    (items : source.items ≤ limits.maxJsonItems) (deep : source.depth ≤ limits.maxJsonDepth)
    (strings : source.Strings fun text => text.length ≤ limits.maxStringLength) :
    WireDocument.make source.denote limits = .ok ⟨source.denote, limits⟩ := by
  obtain ⟨start, rest, blank, there, -⟩ := found
  have clean := valueText_plain there (plain.of_suffix (blank_suffix blank))
  have takes := ((valueText_takes there).blank blank).paid
  have admitted : source.Strings (Admitted limits) := strings.and clean
  have within : Within limits source.denote 0 0 := by
    refine ⟨?_, ?_, ExactTree.strings_denote admitted⟩
    · have fewer := source.items_denote_le
      omega
    · rw [Nat.zero_add]
      exact ExactTree.depth_denote deep
  have encoded : WireDocument.encode ⟨source.denote, limits⟩ = .ok (utf8 (rendered source.denote)) := by
    rw [WireDocument.encode_iff]
    refine ⟨Text.encode_iff.mpr ⟨plain_rendered (ExactTree.strings_denote clean), rfl⟩, ?_⟩
    have lighter := weight_denote_le source
    rw [length_rendered]
    dsimp only
    omega
  exact (WireDocument.make_iff source.proper_denote).mpr ⟨rfl, within, _, encoded⟩

/-- The documents that a text within the limits stands for. -/
def Denotes (text : Text) (limits : Limits) (document : WireDocument) : Prop :=
  ∃ source, DocumentText source text ∧ source.items ≤ limits.maxJsonItems ∧ source.depth ≤ limits.maxJsonDepth ∧
    (source.Strings fun text => text.length ≤ limits.maxStringLength) ∧ document = ⟨source.denote, limits⟩

/-- A stream is parsed exactly when it ends by itself and its text stands for the document. -/
theorem parseStream_iff {limits : Limits} {text : Text} {ending : Ending} {document : WireDocument} (plain : Plain text)
    (short : (utf8 text).length ≤ limits.maxBodyBytes) :
    parseStream limits text ending = .ok document ↔ ending = .finished ∧ Denotes text limits document := by
  constructor
  · intro parsed
    obtain ⟨⟨value, reading⟩, read, parsed⟩ := bind_ok parsed
    obtain ⟨rest, spaced, parsed⟩ := bind_ok parsed
    obtain ⟨next, peeked, parsed⟩ := bind_ok parsed
    obtain ⟨source, start, rfl, blank, there, reads, bounded⟩ := readValue_ok _ _ _ _ _ read
    have after := whitespace_ok spaced
    have items := reads.charged ▸ reads.paid
    have deep := bounded.depth
    rw [Nat.zero_add] at items deep
    rcases peek_ok peeked with ⟨c, tail, some, -⟩ | ⟨none, empty, ended⟩
    · rw [some] at parsed
      cases parsed
    · rw [empty] at after
      rw [none] at parsed
      have found : DocumentText source text := ⟨start, _, blank, there, after⟩
      have made := document_make plain found short items deep bounded.strings
      have same : WireDocument.make source.denote limits = .ok document := parsed
      rw [made] at same
      exact ⟨ended, source, found, items, deep, bounded.strings, (Except.ok.inj same).symm⟩
  · rintro ⟨rfl, source, found, items, deep, strings, rfl⟩
    have made := document_make plain found short items deep strings
    obtain ⟨start, rest, blank, there, after⟩ := found
    have bounded : Bounded limits source 0 := ⟨by omega, strings⟩
    have read := readValue_reads (by omega : source.depth < limits.maxJsonDepth + 2) bounded text start rest 0 blank there
      (stops_blank after stops_nil) (by omega)
    rw [parseStream, read]
    change (whitespace .finished rest >>= _) = _
    rw [whitespace_end after]
    exact made

/-- The parser asks for a character until there is none, so it sees how the stream ends. -/
theorem parseStream_failed (limits : Limits) (text : Text) (error : WireError) {document : WireDocument} :
    parseStream limits text (.failed error) ≠ .ok document := by
  intro parsed
  obtain ⟨⟨value, reading⟩, read, parsed⟩ := bind_ok parsed
  obtain ⟨rest, spaced, parsed⟩ := bind_ok parsed
  obtain ⟨next, peeked, parsed⟩ := bind_ok parsed
  rcases peek_ok peeked with ⟨c, tail, some, -⟩ | ⟨-, -, ended⟩
  · rw [some] at parsed
    cases parsed
  · cases ended

/-- `decode_wire_stream` accepts exactly the UTF-8 forms of the texts within the limits, however they are cut. -/
theorem decodeWireStream_iff {chunks : List (List UInt8)} {limits : Limits} {document : WireDocument} :
    decodeWireStream chunks limits = .ok document ↔
      ∃ text, Text.encode text = some chunks.flatten ∧ chunks.flatten.length ≤ limits.maxBodyBytes ∧
        Denotes text limits document := by
  have unwrapped : decodeWireStream chunks limits = .ok document ↔
      parseStream limits (decodeChunks limits.maxBodyBytes .idle 0 chunks).1
        (decodeChunks limits.maxBodyBytes .idle 0 chunks).2 = .ok document := by
    unfold decodeWireStream
    dsimp only
    split
    · rename_i failed
      rw [failed]
      exact ⟨fun absurd => (by cases absurd), fun absurd => (by cases absurd)⟩
    · rfl
  rw [unwrapped]
  constructor
  · intro parsed
    cases ended : (decodeChunks limits.maxBodyBytes .idle 0 chunks).2 with
    | finished =>
      obtain ⟨run, bound⟩ := (decodeChunks_finished (Nat.zero_le _)).mp (Prod.ext rfl ended)
      have encoded := Utf8Decoder.run_iff.mp run
      obtain ⟨plain, same⟩ := Text.encode_iff.mp encoded
      rw [Nat.zero_add] at bound
      exact ⟨_, encoded, bound, ((parseStream_iff plain (same ▸ bound)).mp parsed).2⟩
    | failed error =>
      rw [ended] at parsed
      exact absurd parsed (parseStream_failed _ _ _)
  · rintro ⟨text, encoded, bound, denotes⟩
    have ended : decodeChunks limits.maxBodyBytes .idle 0 chunks = (text, .finished) :=
      (decodeChunks_finished (Nat.zero_le _)).mpr ⟨Utf8Decoder.run_iff.mpr encoded, by omega⟩
    obtain ⟨plain, same⟩ := Text.encode_iff.mp encoded
    rw [ended]
    exact (parseStream_iff plain (same ▸ bound)).mpr ⟨rfl, denotes⟩

/-- `decode_wire` comes to an end on every payload. It accepts exactly the UTF-8 forms of
the JSON texts within the limits and answers what they denote: of equal members, each
of which is charged, the last, and every number as its source token. -/
theorem decode_wire_accepts_grammar (payload : List UInt8) (limits : Limits) :
    decodeWire payload limits ≠ .error .diverged ∧
      ∀ document, decodeWire payload limits = .ok document ↔
        ∃ text source, Text.encode text = some payload ∧ DocumentText source text ∧
          payload.length ≤ limits.maxBodyBytes ∧ source.items ≤ limits.maxJsonItems ∧
          source.depth ≤ limits.maxJsonDepth ∧ (source.Strings fun text => text.length ≤ limits.maxStringLength) ∧
          document = ⟨source.denote, limits⟩ := by
  refine ⟨decodeWireStream_settles [payload] limits, fun document => ?_⟩
  have whole : [payload].flatten = payload := List.flatten_singleton
  rw [decodeWire, decodeWireStream_iff, whole]
  constructor
  · rintro ⟨text, encoded, bytes, source, found, items, deep, strings, same⟩
    exact ⟨text, source, encoded, found, bytes, items, deep, strings, same⟩
  · rintro ⟨text, source, encoded, found, bytes, items, deep, strings, same⟩
    exact ⟨text, encoded, bytes, source, found, items, deep, strings, same⟩

/-- However the payload is cut into chunks, the stream yields what the whole payload does. -/
theorem chunking_keeps_meaning (payload : List UInt8) (chunks : List (List UInt8)) (limits : Limits)
    (cut : chunks.flatten = payload) (document : WireDocument) :
    decodeWireStream chunks limits = .ok document ↔ decodeWire payload limits = .ok document := by
  have whole : [payload].flatten = payload := List.flatten_singleton
  rw [decodeWire, decodeWireStream_iff, decodeWireStream_iff, cut, whole]

/-- An escape in two chunks and an empty one between them. -/
theorem cut_escape_keeps_meaning : decodeWireStream [[0x22, 0x5c], [], [0x6e, 0x22]] .default =
    .ok ⟨.str [0x0a], .default⟩ :=
  (chunking_keeps_meaning [0x22, 0x5c, 0x6e, 0x22] [[0x22, 0x5c], [], [0x6e, 0x22]] .default rfl _).mpr (by rfl)

theorem escaped_text (c : CodePoint) (rest : Text) : CharText c (escaped c ++ rest) rest := by
  have same : ∀ {n : Nat} (small : n < 0x110000), c.val = n → c = ⟨n, small⟩ := fun small equal => Fin.ext equal
  unfold escaped
  split
  · rename_i equal
    rw [equal]
    exact .short rfl
  split
  · rename_i equal
    rw [equal]
    exact .short rfl
  split
  · rename_i equal
    rw [same (by decide) equal]
    exact .short rfl
  split
  · rename_i equal
    rw [same (by decide) equal]
    exact .short rfl
  split
  · rename_i equal
    rw [same (by decide) equal]
    exact .short rfl
  split
  · rename_i equal
    rw [same (by decide) equal]
    exact .short rfl
  split
  · rename_i equal
    rw [same (by decide) equal]
    exact .short rfl
  split
  · rename_i control
    have digit : ∀ n < 16, hexDigit (hexLetter n) = some n := by decide
    have quad : hexQuad 0x30 0x30 (hexLetter (c.val / 16)) (hexLetter (c.val % 16)) = some c.val := by
      have zero : hexDigit 0x30 = some 0 := rfl
      unfold hexQuad
      rw [digit _ (by omega), digit _ (by omega), zero]
      dsimp only
      exact congrArg some (by omega)
    have char : CharText _ _ rest := .unit quad (by omega)
    rwa [Utf8Decoder.ofNat_val rfl] at char
  · rename_i notQuote notBackslash _ _ _ _ _ control
    exact .plain (by omega) notQuote notBackslash

theorem characters_text (text rest : Text) : Characters text (text.flatMap escaped ++ quote :: rest) rest := by
  induction text with
  | nil => exact .close
  | cons c text ih =>
    rw [List.flatMap_cons, List.append_assoc]
    exact .more (escaped_text c _) ih

theorem dumps_text (text rest : Text) : StringText text (dumps text ++ rest) rest := by
  have characters := characters_text text rest
  rw [dumps, List.cons_append, List.append_assoc]
  exact .quoted characters

/-- Separated pieces are separated texts. -/
theorem separate_text {β : Type} {Entry : β → Text → Text → Prop} {close : CodePoint} {write : β → List Text}
    {entries : List β} (each : ∀ entry ∈ entries, ∀ rest, Entry entry ((write entry).flatten ++ rest) rest)
    (some : entries ≠ []) (rest : Text) :
    Separated Entry close entries ((separate (entries.map write)).flatten ++ close :: rest) rest := by
  induction entries with
  | nil => exact absurd rfl some
  | cons entry others ih =>
    rw [List.forall_mem_cons] at each
    cases others with
    | nil => exact .last .none (each.1 _) .none
    | cons next others =>
      have unfolded : separate ((entry :: next :: others).map write) =
          write entry ++ [comma] :: separate ((next :: others).map write) := rfl
      rw [unfolded, List.flatten_append, List.flatten_cons, List.append_assoc, List.append_assoc]
      exact .more .none (each.1 _) .none (ih each.2 (List.cons_ne_nil _ _))

/-- What a document writes is a text of its canonical form. -/
theorem rendered_text (tree : ExactTree) (rest : Text) : ValueText tree.canonical (rendered tree ++ rest) rest := by
  unfold rendered
  induction tree using ExactTree.induct generalizing rest with
  | null => exact .null
  | bool value =>
    cases value with
    | true => exact .true
    | false => exact .false
  | number value =>
    rw [pieces, List.flatten_singleton]
    exact .number (isNumber_iff.mp value.proper)
  | str value =>
    rw [pieces, List.flatten_singleton]
    exact .str (dumps_text value rest)
  | array values ih =>
    rw [pieces, piecesAll_eq, ExactTree.canonical, ExactTree.canonicalAll_eq, List.flatten_cons, List.flatten_append,
      List.flatten_singleton, List.append_assoc, List.append_assoc]
    by_cases some : values = []
    · rw [some]
      exact .emptyArray .none
    · exact .array (separate_text (fun value member => ih value member) some rest).map
  | object members ih =>
    rw [pieces_object, ExactTree.canonical_object, List.flatten_cons, List.flatten_append, List.flatten_singleton,
      List.append_assoc, List.append_assoc]
    by_cases some : arranged members = []
    · rw [some]
      exact .emptyObject .none
    · refine .object (Separated.map (separate_text (fun member found rest => ?_) some rest))
      rw [memberPieces, List.flatten_cons, List.flatten_cons, List.append_assoc, List.append_assoc]
      exact .pair (dumps_text member.1 _) .none .none (ih member (mem_arranged.mp found) rest)

/-- The wider of two limits. -/
def widest (first second : Limits) : Limits :=
  ⟨max first.maxBodyBytes second.maxBodyBytes, max first.maxJsonDepth second.maxJsonDepth,
    max first.maxJsonItems second.maxJsonItems, max first.maxMetadataItems second.maxMetadataItems,
    max first.maxStringLength second.maxStringLength, by
      have positive := first.positive
      omega⟩

/-- What an accepted document writes stands for its canonical form. -/
theorem denotes_rendered {value : ExactTree} {limits : Limits} (wide : Limits) (proper : value.Proper) (within : Within limits value 0 0)
    (wider : limits.maxJsonItems ≤ wide.maxJsonItems ∧ limits.maxJsonDepth ≤ wide.maxJsonDepth ∧
      limits.maxStringLength ≤ wide.maxStringLength) :
    Denotes (rendered value) wide ⟨value.canonical, wide⟩ := by
  have items := within.items
  have deep := within.depth
  have found := rendered_text value []
  rw [List.append_nil] at found
  refine ⟨value.canonical, ⟨_, [], .none, found, .none⟩, ?_, ?_, ?_, ?_⟩
  · rw [ExactTree.items_canonical]
    omega
  · rw [ExactTree.depth_canonical]
    omega
  · refine ExactTree.strings_canonical.mpr (within.strings.imp fun text admitted => ?_)
    have short := admitted.1
    omega
  · rw [ExactTree.denote_of_proper (ExactTree.proper_canonical proper)]

/-- Every text stands for one document. -/
theorem denotes_unique {text : Text} {limits : Limits} {first second : WireDocument} (plain : Plain text)
    (short : (utf8 text).length ≤ limits.maxBodyBytes) (one : Denotes text limits first) (two : Denotes text limits second) :
    first = second := by
  have parsed := (parseStream_iff plain short).mpr ⟨rfl, one⟩
  rw [(parseStream_iff plain short).mpr ⟨rfl, two⟩] at parsed
  exact (Except.ok.inj parsed).symm

theorem canonical_of_bytes {first second : ExactValue} {limits limits' : Limits} {document document' : WireDocument}
    {bytes : List UInt8} (made : WireDocument.make first.tree limits = .ok document)
    (made' : WireDocument.make second.tree limits' = .ok document') (encoded : document.encode = .ok bytes)
    (encoded' : document'.encode = .ok bytes) : first.tree.canonical = second.tree.canonical := by
  obtain ⟨rfl, within, -⟩ := (WireDocument.make_iff first.proper).mp made
  obtain ⟨rfl, within', -⟩ := (WireDocument.make_iff second.proper).mp made'
  obtain ⟨isText, bound⟩ := WireDocument.encode_iff.mp encoded
  obtain ⟨isText', bound'⟩ := WireDocument.encode_iff.mp encoded'
  have run := Utf8Decoder.run_iff.mpr isText
  rw [Utf8Decoder.run_iff.mpr isText'] at run
  have same : rendered second.tree = rendered first.tree := (Prod.mk.inj (Option.some.inj run)).1
  obtain ⟨plain, isBytes⟩ := Text.encode_iff.mp isText
  have one := denotes_rendered (widest limits limits') first.proper within
    ⟨le_max_left _ _, le_max_left _ _, le_max_left _ _⟩
  have two := denotes_rendered (widest limits limits') second.proper within'
    ⟨le_max_right _ _, le_max_right _ _, le_max_right _ _⟩
  rw [same] at two
  have short : (utf8 (rendered first.tree)).length ≤ (widest limits limits').maxBodyBytes := by
    rw [isBytes] at bound
    exact bound.trans (le_max_left _ _)
  exact congrArg WireDocument.value (denotes_unique plain short one two)

/-- A value that is accepted comes back from its bytes, with every number as its token;
and values with the same bytes are equal. -/
theorem wire_round_trip (value : ExactValue) (limits : Limits) (document : WireDocument)
    (accepted : WireDocument.make value.tree limits = .ok document) :
    ∃ bytes decoded, document.encode = .ok bytes ∧ decodeWire bytes limits = .ok decoded ∧
      value.tree.equal decoded.value = true ∧
      ∀ (other : ExactValue) (limits' : Limits) (document' : WireDocument),
        WireDocument.make other.tree limits' = .ok document' → document'.encode = .ok bytes →
          value.tree.equal other.tree = true := by
  obtain ⟨rfl, within, bytes, encoded⟩ := (WireDocument.make_iff value.proper).mp accepted
  obtain ⟨isText, bound⟩ := WireDocument.encode_iff.mp encoded
  refine ⟨bytes, ⟨value.tree.canonical, limits⟩, encoded, ?_, ExactTree.equal_canonical value.proper, ?_⟩
  · have whole : [bytes].flatten = bytes := List.flatten_singleton
    rw [decodeWire, decodeWireStream_iff, whole]
    exact ⟨_, isText, bound, denotes_rendered limits value.proper within ⟨le_rfl, le_rfl, le_rfl⟩⟩
  · intro other limits' document' made encoded'
    exact ExactTree.equal_of_canonical other.proper (canonical_of_bytes accepted made encoded encoded')

/-- An object with an array of a number and a line feed under its second key. -/
def sampleValue : ExactValue :=
  ⟨.object [([0x62], .array [.number ⟨[0x31, 0x65, 0x2b, 0x32], rfl⟩, .str [0x0a]]), ([0x61], .null)],
    by decide, ⟨trivial, trivial, trivial⟩, trivial, trivial⟩

theorem sample_round_trip : ∃ bytes decoded, WireDocument.encode ⟨sampleValue.tree, .default⟩ = .ok bytes ∧
    decodeWire bytes .default = .ok decoded ∧ sampleValue.tree.equal decoded.value = true ∧
    ∀ (other : ExactValue) (limits' : Limits) (document' : WireDocument),
      WireDocument.make other.tree limits' = .ok document' → document'.encode = .ok bytes →
        sampleValue.tree.equal other.tree = true :=
  wire_round_trip sampleValue .default ⟨sampleValue.tree, .default⟩ rfl

end Pytitect.Wire
