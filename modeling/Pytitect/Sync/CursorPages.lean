import Pytitect.Sync.Boundaries
import Pytitect.Sync.Cursors

namespace Pytitect.Sync
open Text Wire
open OpaqueCursorCodec (sealed)

/-- A character that needs no escape, is not blank and takes one byte. -/
def isPlain (c : CodePoint) : Bool :=
  !c.isSpace && 0x20 ≤ c.val && !c.isSurrogate && escaped c = [c] && c.utf8.length = 1

theorem base64Digit_plain : ∀ sextet < 64, isPlain (base64Digit sextet) = true := by
  decide

theorem base64urlEncode_plain (bytes : List UInt8) : ∀ c ∈ base64urlEncode bytes, isPlain c = true := by
  rw [base64urlEncode_eq]
  intro c member
  obtain ⟨sextet, found, rfl⟩ := List.mem_map.mp member
  exact base64Digit_plain sextet (base64Sextets_lt bytes sextet found)

section
variable {token : Text}

theorem length_utf8_plain (plain : ∀ c ∈ token, isPlain c = true) : (utf8 token).length = token.length := by
  induction token with
  | nil => rfl
  | cons c rest ih =>
    rw [List.forall_mem_cons] at plain
    have one : c.utf8.length = 1 := by
      have first := plain.1
      simp only [isPlain, Bool.and_eq_true, decide_eq_true_eq] at first
      exact first.2
    rw [length_utf8_cons, ih plain.2, one, List.length_cons]
    omega

theorem escaped_plain (plain : ∀ c ∈ token, isPlain c = true) : token.flatMap escaped = token := by
  induction token with
  | nil => rfl
  | cons c rest ih =>
    rw [List.forall_mem_cons] at plain
    have same : escaped c = [c] := by
      have first := plain.1
      simp only [isPlain, Bool.and_eq_true, decide_eq_true_eq] at first
      exact first.1.2
    rw [List.flatMap_cons, ih plain.2, same]
    rfl

/-- A plain text takes its characters and two quotes. -/
theorem length_dumps_plain (plain : ∀ c ∈ token, isPlain c = true) :
    (utf8 (dumps token)).length = token.length + 2 := by
  have mark : JsonText.quote.utf8.length = 1 := by decide
  have last : (utf8 [JsonText.quote]).length = 1 := by decide
  rw [dumps, length_utf8_cons, length_utf8_append, escaped_plain plain, length_utf8_plain plain, mark, last]
  omega

theorem opaque_of_plain (some : token ≠ []) (plain : ∀ c ∈ token, isPlain c = true) : Opaque token := by
  have holds : ∀ c ∈ token, c.isSpace = false ∧ 0x20 ≤ c.val ∧ c.isSurrogate = false := by
    intro c member
    have first := plain c member
    simp only [isPlain, Bool.and_eq_true, decide_eq_true_eq, Bool.not_eq_true'] at first
    exact ⟨first.1.1.1.1, first.1.1.1.2, first.1.1.2⟩
  refine ⟨some, ?_, ?_, ?_⟩
  · have head := (holds _ (List.head_mem some)).1
    have last := (holds _ (List.getLast_mem some)).1
    unfold Text.trimmed
    rw [List.head?_eq_some_head some, List.getLast?_eq_some_getLast some]
    simp [head, last]
  · rw [List.any_eq_false]
    intro c member
    have above := (holds c member).2.1
    simp only [decide_eq_true_eq]
    omega
  · rw [List.any_eq_false]
    intro c member
    rw [(holds c member).2.2]
    exact Bool.false_ne_true

end

/-- The text of an envelope. -/
structure IsEnvelope (token : Text) : Prop where
  long : 2 ≤ token.length
  plain : ∀ c ∈ token, isPlain c = true

theorem isEnvelope (first second third : List UInt8) :
    IsEnvelope (OpaqueCursorCodec.envelope (base64urlEncode first) (base64urlEncode second) (base64urlEncode third)) := by
  have dot : isPlain 0x2e = true := by decide
  unfold OpaqueCursorCodec.envelope
  refine ⟨?_, fun c member => ?_⟩
  · simp only [List.length_append, List.length_cons]
    omega
  simp only [List.mem_append, List.mem_cons] at member
  rcases member with found | rfl | found | rfl | found
  · exact base64urlEncode_plain _ c found
  · exact dot
  · exact base64urlEncode_plain _ c found
  · exact dot
  · exact base64urlEncode_plain _ c found

section
variable {platform : Platform} {crypto : CursorCrypto} {codec : OpaqueCursorCodec} {payload nonce : List UInt8}
  {dataset partition kid algorithm token : Text} {expiresAt : Option Int}

theorem sealed_envelope {selected : CursorAlgorithm} {key : List UInt8} {header : Option (List UInt8) → JsonValue}
    (made : sealed platform crypto selected key payload nonce header = .ok token) : IsEnvelope token := by
  cases selected with
  | hs256 =>
    obtain ⟨⟨⟩, -, made⟩ := bind_ok made
    obtain ⟨protectedBytes, -, made⟩ := bind_ok made
    obtain ⟨digest, -, made⟩ := bind_ok made
    rw [← Except.ok.inj made]
    exact isEnvelope _ _ _
  | a256gcm =>
    obtain ⟨⟨⟩, -, made⟩ := bind_ok made
    split at made
    · cases made
    obtain ⟨protectedBytes, -, made⟩ := bind_ok made
    obtain ⟨encrypted, -, made⟩ := bind_ok made
    rw [← Except.ok.inj made]
    exact isEnvelope _ _ _

theorem encode_envelope
    (emitted : codec.encode platform crypto payload dataset partition kid algorithm expiresAt nonce = .ok token) :
    IsEnvelope token := by
  obtain ⟨selected, -, emitted⟩ := bind_ok emitted
  obtain ⟨⟨⟩, -, emitted⟩ := bind_ok emitted
  split at emitted
  · cases emitted
  split at emitted
  · cases emitted
  obtain ⟨key, -, emitted⟩ := bind_ok emitted
  obtain ⟨made, isMade, emitted⟩ := bind_ok emitted
  split at emitted
  · cases emitted
  split at emitted
  · cases emitted
  rw [← Except.ok.inj emitted]
  exact sealed_envelope isMade

end

/-- The document of a page, by the fields of its payload around the cursor. -/
def carrying (kind : Text) (before after : List (String × JsonValue)) (cursor : Option Text) : JsonValue :=
  envelope kind (members (before ++ ("next_cursor", nullable (cursor.map .str)) :: after))

section
variable {interpreter : Interpreter} {kind token : Text} {before after : List (String × JsonValue)}

/-- The members of a document around its cursor, as trees. -/
def around (interpreter : Interpreter) (entries : List (String × JsonValue)) : List (Text × ExactTree) :=
  entries.map fun entry => (entry.1.codePoints, entry.2.exact interpreter)

theorem carrying_exact (cursor : Option Text) : (carrying kind before after cursor).exact interpreter =
    .object [("protocol".codePoints, .str syncProtocol), ("kind".codePoints, .str kind), ("payload".codePoints,
      .object (around interpreter before ++ ("next_cursor".codePoints, (nullable (cursor.map .str)).exact interpreter) ::
        around interpreter after))] := by
  simp only [carrying, envelope, members, named, around, JsonValue.exact, JsonValue.exactMembers, JsonValue.exactMembers_eq,
    List.map_append, List.map_cons, List.map_nil, List.map_map]
  rfl

theorem carrying_items : ((carrying kind before after (some token)).exact interpreter).items =
    ((carrying kind before after none).exact interpreter).items := by
  rw [carrying_exact, carrying_exact]
  simp only [ExactTree.items, ExactTree.itemsMembers_eq, List.map_append, List.map_cons, List.sum_append, List.sum_cons,
    List.map_nil, List.sum_nil]
  rfl

theorem carrying_depth : ((carrying kind before after (some token)).exact interpreter).depth =
    ((carrying kind before after none).exact interpreter).depth := by
  have inner : ∀ value other : ExactTree, value.depth = other.depth →
      ExactTree.depthMembers (around interpreter before ++ ("next_cursor".codePoints, value) :: around interpreter after) =
        ExactTree.depthMembers (around interpreter before ++ ("next_cursor".codePoints, other) :: around interpreter after) := by
    intro value other same
    refine eq_of_forall_ge_iff fun bound => ?_
    rw [ExactTree.depthMembers_le, ExactTree.depthMembers_le]
    simp only [List.forall_mem_append, List.forall_mem_cons, same]
  have same := inner ((nullable ((some token).map .str)).exact interpreter)
    ((nullable ((none : Option Text).map .str)).exact interpreter) rfl
  rw [carrying_exact, carrying_exact]
  simp only [ExactTree.depth, ExactTree.depthMembers, same]

theorem carrying_strings {test : Text → Prop} (passes : test token) :
    ((carrying kind before after (some token)).exact interpreter).Strings test ↔
      ((carrying kind before after none).exact interpreter).Strings test := by
  have cursor : ∀ cursor : Option Text, (∀ text, cursor = some text → test text) →
      ((nullable (cursor.map .str)).exact interpreter).Strings test := by
    intro cursor passed
    cases cursor with
    | none => trivial
    | some text => exact passed text rfl
  have filled := cursor (some token) fun text same => Option.some.inj same ▸ passes
  have empty := cursor none fun text absurd => by cases absurd
  rw [carrying_exact, carrying_exact]
  simp only [ExactTree.Strings, ExactTree.stringsMembers_iff, List.forall_mem_append, List.forall_mem_cons, filled, empty]

theorem carrying_numbers {ints : Int → Prop} {floats : UInt64 → Prop} :
    (carrying kind before after (some token)).Numbers ints floats ↔ (carrying kind before after none).Numbers ints floats := by
  have cursor : ∀ cursor : Option Text, (nullable (cursor.map .str)).Numbers ints floats := by
    intro cursor
    cases cursor <;> trivial
  have filled := cursor (some token)
  have empty := cursor none
  unfold carrying envelope
  simp only [numbers_members, List.forall_mem_append, List.forall_mem_cons, filled, empty]

theorem carrying_weight (plain : ∀ c ∈ token, isPlain c = true) :
    weight ((carrying kind before after (some token)).exact interpreter) + 2 =
      weight ((carrying kind before after none).exact interpreter) + token.length := by
  have filled : weight ((nullable ((some token).map .str)).exact interpreter) = token.length + 2 := length_dumps_plain plain
  have empty : weight ((nullable ((none : Option Text).map .str)).exact interpreter) = 4 := by
    show (utf8 JsonText.nullWord).length = 4
    decide
  rw [carrying_exact, carrying_exact]
  simp only [weight, weightMembers, weightMembers_eq, List.map_append, List.map_cons, List.sum_append, List.sum_cons,
    memberWeight, filled, empty]
  omega

/-- A document with a cursor is within the bounds exactly when it is without one, and has room for it. -/
theorem carrying_within (isEnvelope : IsEnvelope token) (short : token.length ≤ 255) :
    WithinBudget interpreter .default (carrying kind before after (some token)) ↔
      WithinBudget interpreter .default (carrying kind before after none) ∧
        weight ((carrying kind before after none).exact interpreter) + token.length ≤ 1048576 + 2 := by
  obtain ⟨long, plain⟩ := isEnvelope
  have weights := @carrying_weight interpreter kind token before after plain
  have room : SyncLimits.default.maxDocumentBytes = 1048576 := rfl
  have scalar : Plain token := (opaque_of_plain (List.length_pos_iff.mp (by omega)) plain).plain
  have few : token.length ≤ (documentLimits .default).maxStringLength := by
    show token.length ≤ 1048576
    omega
  have strings := @carrying_strings interpreter kind token before after
    (fun text => text.length ≤ (documentLimits .default).maxStringLength) few
  have scalars := @carrying_strings interpreter kind token before after Plain scalar
  constructor
  · rintro ⟨items, ⟨depth, texts, finite⟩, writes, plains, bytes⟩
    rw [carrying_items] at items
    rw [carrying_depth] at depth
    refine ⟨⟨items, ⟨depth, strings.mp texts, carrying_numbers.mp finite⟩, carrying_numbers.mp writes, scalars.mp plains, ?_⟩, ?_⟩
    · omega
    · omega
  · rintro ⟨⟨items, ⟨depth, texts, finite⟩, writes, plains, -⟩, bytes⟩
    rw [← carrying_items] at items
    rw [← carrying_depth] at depth
    refine ⟨items, ⟨depth, strings.mpr texts, carrying_numbers.mpr finite⟩, carrying_numbers.mpr writes, scalars.mpr plains, ?_⟩
    omega

/-- The document without a cursor survives, and has room for a token and its quotes in place of `null`. -/
def RoomFor (interpreter : Interpreter) (d : SyncDocument) (token : Text) : Prop :=
  ∃ v, encodeSyncDocument interpreter d .default = .ok v ∧ decodeSyncDocument interpreter v .default = .ok d ∧
    (utf8 (v.text interpreter false)).length + token.length ≤ SyncLimits.default.maxDocumentBytes + "null".length - 2

/-- The document is encoded, and what it is encoded to is decoded to it. -/
def Survives (interpreter : Interpreter) (d : SyncDocument) : Prop :=
  ∃ v, encodeSyncDocument interpreter d .default = .ok v ∧ decodeSyncDocument interpreter v .default = .ok d

theorem encodes_iff {d : SyncDocument} {payload v : JsonValue} (written : encodePayload d = .ok (kind, payload)) :
    encodeSyncDocument interpreter d .default = .ok v ↔
      v = envelope kind payload ∧ WithinBudget interpreter .default (envelope kind payload) := by
  unfold encodeSyncDocument
  rw [written]
  constructor
  · intro encoded
    obtain ⟨_, same, encoded⟩ := bind_ok encoded
    cases same
    obtain ⟨⟨⟩, bounded, same⟩ := bind_ok encoded
    exact ⟨(Except.ok.inj same).symm, documentBounds_iff.mp bounded⟩
  · rintro ⟨rfl, within⟩
    exact bind_ok_iff.mpr ⟨_, rfl, bind_ok_iff.mpr ⟨(), documentBounds_iff.mpr within, rfl⟩⟩

/-- A document survives with a cursor exactly when it does without one and leaves room for it. -/
theorem survives_carrying {filled bare : SyncDocument} (isEnvelope : IsEnvelope token) (short : token.length ≤ 255)
    (written : ∃ kind before after, encodePayload filled = .ok (kind, members (before ++
        ("next_cursor", nullable ((some token).map .str)) :: after)) ∧
      encodePayload bare = .ok (kind, members (before ++ ("next_cursor", nullable ((none : Option Text).map .str)) :: after))) :
    Survives interpreter filled ↔ RoomFor interpreter bare token := by
  obtain ⟨kind, before, after, written, writtenBare⟩ := written
  have within := @carrying_within interpreter kind token before after isEnvelope short
  have weighed : (utf8 ((carrying kind before after none).text interpreter false)).length =
      weight ((carrying kind before after none).exact interpreter) := length_written _
  have bound : SyncLimits.default.maxDocumentBytes + "null".length - 2 = 1048576 + 2 := rfl
  unfold Survives RoomFor
  rw [bound]
  constructor
  · rintro ⟨v, encoded, -⟩
    obtain ⟨rfl, fits⟩ := (encodes_iff written).mp encoded
    obtain ⟨fitsBare, room⟩ := within.mp fits
    have encodedBare := (encodes_iff writtenBare).mpr ⟨rfl, fitsBare⟩
    refine ⟨_, encodedBare, decode_encoded encodedBare, ?_⟩
    rw [← weighed] at room
    exact room
  · rintro ⟨v, encoded, -, room⟩
    obtain ⟨rfl, fits⟩ := (encodes_iff writtenBare).mp encoded
    have room' : weight ((carrying kind before after none).exact interpreter) + token.length ≤ 1048576 + 2 := by
      rw [← weighed]
      exact room
    have encodedFilled := (encodes_iff written).mpr ⟨rfl, within.mpr ⟨fits, room'⟩⟩
    exact ⟨_, encodedFilled, decode_encoded encodedFilled⟩

end

section
variable {platform : Platform} {crypto : CursorCrypto} {codec : OpaqueCursorCodec} {payload nonce : List UInt8}
  {dataset partition kid algorithm token : Text} {expiresAt : Option Int}

theorem optionalId_envelope {name : String} (isEnvelope : IsEnvelope token) :
    optionalId (some token) name = .ok () ↔ (utf8 token).length ≤ SyncLimits.default.maxOpaqueIdBytes := by
  obtain ⟨long, plain⟩ := isEnvelope
  have proper := opaque_of_plain (List.length_pos_iff.mp (by omega)) plain
  show opaqueId token name none = .ok () ↔ (utf8 token).length ≤ maximumOr none
  rw [opaqueId_iff, and_iff_right proper]

/-- The checks of both kinds of pages, of which the fourth is that of the cursor. -/
theorem checks_cursor {first second third last : Except ContractError Unit} (isEnvelope : IsEnvelope token)
    (bare : (do
      first
      second
      third
      optionalId none "next_cursor"
      last) = .ok ()) :
    (do
      first
      second
      third
      optionalId (some token) "next_cursor"
      last) = .ok () ↔ (utf8 token).length ≤ SyncLimits.default.maxOpaqueIdBytes := by
  obtain ⟨⟨⟩, before, rest⟩ := bind_ok bare
  obtain ⟨⟨⟩, between, rest⟩ := bind_ok rest
  obtain ⟨⟨⟩, behind, rest⟩ := bind_ok rest
  obtain ⟨⟨⟩, -, ending⟩ := bind_ok rest
  rw [← optionalId_envelope isEnvelope]
  constructor
  · intro passed
    obtain ⟨⟨⟩, -, passed⟩ := bind_ok passed
    obtain ⟨⟨⟩, -, passed⟩ := bind_ok passed
    obtain ⟨⟨⟩, -, passed⟩ := bind_ok passed
    obtain ⟨⟨⟩, fits, -⟩ := bind_ok passed
    exact fits
  · intro fits
    exact bind_ok_iff.mpr ⟨(), before, bind_ok_iff.mpr ⟨(), between, bind_ok_iff.mpr ⟨(), behind,
      bind_ok_iff.mpr ⟨(), fits, ending⟩⟩⟩⟩

/-- An emitted cursor is accepted by a page exactly when it takes no more bytes than an opaque identifier may; the page
then survives exactly when it does so without the cursor and its document has room for it. -/
theorem emitted_cursor_fits_iff (interpreter : Interpreter)
    (emitted : codec.encode platform crypto payload dataset partition kid algorithm expiresAt nonce = .ok token) :
    (∀ datasetId generation upserts integrity (bare : SnapshotPage.postInit datasetId generation upserts none integrity = .ok ()),
      (SnapshotPage.postInit datasetId generation upserts (some token) integrity = .ok () ↔
        (utf8 token).length ≤ SyncLimits.default.maxOpaqueIdBytes) ∧
      ∀ valid : SnapshotPage.postInit datasetId generation upserts (some token) integrity = .ok (),
        Survives interpreter (.snapshot ⟨datasetId, generation, upserts, some token, integrity, valid⟩) ↔
          RoomFor interpreter (.snapshot ⟨datasetId, generation, upserts, none, integrity, bare⟩) token) ∧
    ∀ datasetId generation upserts tombstones integrity
        (bare : DeltaPage.postInit datasetId generation upserts tombstones none integrity = .ok ()),
      (DeltaPage.postInit datasetId generation upserts tombstones (some token) integrity = .ok () ↔
        (utf8 token).length ≤ SyncLimits.default.maxOpaqueIdBytes) ∧
      ∀ valid : DeltaPage.postInit datasetId generation upserts tombstones (some token) integrity = .ok (),
        Survives interpreter (.delta ⟨datasetId, generation, upserts, tombstones, some token, integrity, valid⟩) ↔
          RoomFor interpreter (.delta ⟨datasetId, generation, upserts, tombstones, none, integrity, bare⟩) token := by
  have isEnvelope := encode_envelope emitted
  have bytes := length_utf8_plain isEnvelope.plain
  constructor
  · intro datasetId generation upserts integrity bare
    have accepted : SnapshotPage.postInit datasetId generation upserts (some token) integrity = .ok () ↔
        (utf8 token).length ≤ SyncLimits.default.maxOpaqueIdBytes :=
      checks_cursor isEnvelope bare
    refine ⟨accepted, fun valid => survives_carrying isEnvelope (bytes ▸ accepted.mp valid) ?_⟩
    exact ⟨_, [("dataset_id", .str datasetId), ("generation", .int generation), ("upserts", .list (upserts.map upsertJson))],
      [("integrity", integrityJson integrity)], rfl, rfl⟩
  · intro datasetId generation upserts tombstones integrity bare
    have accepted : DeltaPage.postInit datasetId generation upserts tombstones (some token) integrity = .ok () ↔
        (utf8 token).length ≤ SyncLimits.default.maxOpaqueIdBytes :=
      checks_cursor isEnvelope bare
    refine ⟨accepted, fun valid => survives_carrying isEnvelope (bytes ▸ accepted.mp valid) ?_⟩
    refine ⟨"delta".codePoints, [("dataset_id", .str datasetId), ("generation", .int generation), ("upserts", .list (upserts.map upsertJson)),
      ("tombstones", .list (tombstones.map fun d => members (tombstoneWritten d)))],
      [("integrity", integrityJson integrity)], ?_, ?_⟩
    · rw [encodePayload, tombstones_eq]
      rfl
    · rw [encodePayload, tombstones_eq]
      rfl

end

/-- The canonical encoder as far as the names of the members are ASCII. -/
def writeCanonical (value : JsonValue) : Except PyError (List UInt8) := do
  let text ← value.dumps sampleInterpreter true
  return utf8 text

def writingPlatform : Platform := ⟨fun _ => .error (.valueError "Expecting value"), writeCanonical, id, id, id⟩

/-- HMAC-SHA256 where only one message is signed, by the digest of this message. -/
def digesting (digest : List UInt8) : CursorCrypto := ⟨fun _ _ => digest, fun _ _ _ _ => .ok [], fun _ _ _ _ => none⟩

def oneKey : OpaqueCursorCodec := .ofMapping (Dict.empty.set "k".codePoints (List.replicate 32 0x6b)) .default

/-- What is signed for a payload of one byte, and for one of 120 bytes. -/
def shortDigest : List UInt8 :=
  [250, 155, 252, 38, 142, 80, 74, 236, 119, 154, 238, 144, 237, 160, 252, 41, 134, 54, 143, 1, 202, 156, 80, 232, 27, 49,
    183, 64, 44, 186, 202, 46]

def longDigest : List UInt8 :=
  [102, 210, 8, 170, 202, 204, 221, 94, 164, 77, 195, 157, 59, 67, 245, 50, 39, 112, 215, 116, 172, 180, 156, 225, 127,
    178, 38, 149, 198, 149, 183, 158]

/-- The canonical header of both tokens. -/
def plainHeader : List UInt8 :=
  utf8 "\x7b\"alg\":\"HS256\",\"dataset\":\"d\",\"kid\":\"k\",\"partition\":\"p\",\"v\":1\x7d".codePoints

def plainToken (payload digest : List UInt8) : Text :=
  OpaqueCursorCodec.envelope (base64urlEncode plainHeader) (base64urlEncode payload) (base64urlEncode digest)

theorem short_emitted : oneKey.encode writingPlatform (digesting shortDigest) [0x78] "d".codePoints "p".codePoints "k".codePoints
    "HS256".codePoints none [] = .ok (plainToken [0x78] shortDigest) := by
  decide +kernel

/-- The integrity of a page without items, with a digest of zeros. -/
def noItems : Integrity := ⟨"sha-256".codePoints, List.replicate 64 0x30, 0, rfl⟩

/-- The shorter token is accepted as the cursor of an empty page. -/
theorem short_cursor_fits :
    SnapshotPage.postInit "d".codePoints 0 [] (some (plainToken [0x78] shortDigest)) noItems = .ok () :=
  ((emitted_cursor_fits_iff sampleInterpreter short_emitted).1 "d".codePoints 0 [] noItems rfl).1.mpr (by decide +kernel)

theorem long_emitted : oneKey.encode writingPlatform (digesting longDigest) (List.replicate 120 0x78) "d".codePoints
    "p".codePoints "k".codePoints "HS256".codePoints none [] = .ok (plainToken (List.replicate 120 0x78) longDigest) := by
  decide +kernel

/-- The longer token takes 287 bytes, and no page accepts it. -/
theorem long_cursor_refused : ¬∀ (platform : Platform) (crypto : CursorCrypto) (codec : OpaqueCursorCodec)
    (payload nonce : List UInt8) (dataset partition kid algorithm token : Text) (expiresAt : Option Int),
    codec.limits = .default → codec.encode platform crypto payload dataset partition kid algorithm expiresAt nonce = .ok token →
      ∀ datasetId generation upserts integrity,
        SnapshotPage.postInit datasetId generation upserts none integrity = .ok () →
          SnapshotPage.postInit datasetId generation upserts (some token) integrity = .ok () := by
  intro fits
  have accepted := fits writingPlatform (digesting longDigest) oneKey (List.replicate 120 0x78) [] "d".codePoints "p".codePoints
    "k".codePoints "HS256".codePoints _ none rfl long_emitted "d".codePoints 0 [] noItems rfl
  have short := (checks_cursor (encode_envelope long_emitted) (by rfl)).mp accepted
  have long : ¬(utf8 (plainToken (List.replicate 120 0x78) longDigest)).length ≤ SyncLimits.default.maxOpaqueIdBytes := by
    decide +kernel
  exact long short

end Pytitect.Sync
