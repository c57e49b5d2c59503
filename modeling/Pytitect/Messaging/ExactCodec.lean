import Pytitect.Messaging.Codecs

namespace Pytitect.Wire
open Text

section
variable {limits : Limits}

/-- `_freeze` yields mappings, whatever it is given. -/
theorem visit_proper {tree frozen : ExactTree} {depth count counted : Nat} (visited : visit limits tree depth count = .ok (frozen, counted)) :
    frozen.Proper := by
  induction tree using ExactTree.induct generalizing frozen depth count counted with
  | null =>
    obtain ⟨_, _, visited⟩ := bind_ok visited
    cases visited
    trivial
  | bool value =>
    obtain ⟨_, _, visited⟩ := bind_ok visited
    cases visited
    trivial
  | number value =>
    obtain ⟨_, _, visited⟩ := bind_ok visited
    cases visited
    trivial
  | str value =>
    obtain ⟨_, _, visited⟩ := bind_ok visited
    obtain ⟨_, _, visited⟩ := bind_ok visited
    cases visited
    trivial
  | array values ih =>
    obtain ⟨start, _, visited⟩ := bind_ok visited
    obtain ⟨⟨all, last⟩, visitedAll, visited⟩ := bind_ok visited
    cases visited
    rw [ExactTree.Proper, ExactTree.properAll_iff]
    clear * - ih visitedAll
    induction values generalizing all start with
    | nil =>
      cases visitedAll
      simp
    | cons value rest later =>
      rw [List.forall_mem_cons] at ih
      obtain ⟨⟨first, after⟩, visitedFirst, visitedAll⟩ := bind_ok visitedAll
      obtain ⟨⟨others, last⟩, visitedRest, visitedAll⟩ := bind_ok visitedAll
      cases visitedAll
      exact List.forall_mem_cons.mpr ⟨ih.1 visitedFirst, later ih.2 _ _ visitedRest⟩
  | object members ih =>
    obtain ⟨start, _, visited⟩ := bind_ok visited
    obtain ⟨⟨all, last⟩, visitedAll, visited⟩ := bind_ok visited
    cases visited
    rw [ExactTree.Proper, ExactTree.properMembers_iff]
    refine ⟨all.nodup, ?_⟩
    have none : ∀ member ∈ (Dict.empty : Dict Text ExactTree).items, member.2.Proper := by
      intro member absurd
      cases absurd
    revert none visitedAll
    clear * - ih
    generalize (Dict.empty : Dict Text ExactTree) = found
    intro visitedAll proper
    induction members generalizing found start with
    | nil =>
      cases visitedAll
      exact proper
    | cons member rest later =>
      obtain ⟨key, value⟩ := member
      rw [List.forall_mem_cons] at ih
      obtain ⟨_, _, visitedAll⟩ := bind_ok visitedAll
      obtain ⟨⟨child, after⟩, visitedChild, visitedAll⟩ := bind_ok visitedAll
      refine later ih.2 _ _ visitedAll ?_
      rintro ⟨name, item⟩ member
      rcases Dict.get?_set_cases (Dict.mem_items.mp member) with ⟨rfl, rfl⟩ | ⟨-, old⟩
      · exact ih.1 visitedChild
      · exact proper _ (Dict.mem_items.mpr old)

/-- The value of a document is made of mappings. -/
theorem make_proper {source : ExactTree} {document : WireDocument} (made : WireDocument.make source limits = .ok document) :
    document.value.Proper := by
  obtain ⟨frozen, kept, made⟩ := bind_ok made
  obtain ⟨_, _, made⟩ := bind_ok made
  obtain ⟨⟨seen, counted⟩, visited, kept⟩ := bind_ok kept
  cases kept
  cases made
  exact visit_proper visited

/-- Values with one canonical form keep the same bounds. -/
theorem Within.of_canonical {tree other : ExactTree} (within : Within limits tree 0 0) (same : tree.canonical = other.canonical) :
    Within limits other 0 0 := by
  obtain ⟨items, deep, strings⟩ := within
  refine ⟨?_, ?_, ?_⟩
  · rwa [← ExactTree.items_canonical, ← same, ExactTree.items_canonical]
  · rwa [← ExactTree.depth_canonical, ← same, ExactTree.depth_canonical]
  · rwa [← ExactTree.strings_canonical, ← same, ExactTree.strings_canonical]

/-- The bounds hold of a member. -/
theorem Within.member {members : List (Text × ExactTree)} {key : Text} {value : ExactTree} (within : Within limits (.object members) 0 0)
    (member : (key, value) ∈ members) : Within limits value 0 0 := by
  obtain ⟨items, deep, strings⟩ := within
  rw [ExactTree.items, ExactTree.itemsMembers_eq] at items
  rw [ExactTree.depth] at deep
  rw [ExactTree.Strings, ExactTree.stringsMembers_iff] at strings
  have fewer := List.single_le_sum (fun _ _ => Nat.zero_le _) _ (List.mem_map_of_mem (f := fun member => member.2.items) member)
  have below := ExactTree.depthMembers_le.mp (le_refl (ExactTree.depthMembers members)) _ member
  refine ⟨?_, ?_, (strings _ member).2⟩
  · have fewer : value.items ≤ (members.map fun member => member.2.items).sum := fewer
    omega
  · have below : value.depth + 1 ≤ ExactTree.depthMembers members := below
    omega

/-- A member is written in fewer bytes than the object. -/
theorem weight_member {members : List (Text × ExactTree)} {key : Text} {value : ExactTree} (member : (key, value) ∈ members) :
    weight value ≤ weight (.object members) := by
  have less := List.single_le_sum (fun _ _ => Nat.zero_le _) _ (List.mem_map_of_mem (f := memberWeight) member)
  have less : (utf8 (dumps key)).length + 1 + weight value + 1 ≤ (members.map memberWeight).sum := less
  rw [weight, weightMembers_eq]
  omega

end

end Pytitect.Wire

namespace Pytitect.Messaging
open Wire Text

section
variable {limits : Limits} {bytes : List UInt8} {chunks : List (List UInt8)}

theorem encodeValue_iff {tree : ExactTree} (proper : tree.Proper) : encodeValue tree limits = .ok bytes ↔
    Within limits tree 0 0 ∧ Text.encode (rendered tree) = some bytes ∧ bytes.length ≤ limits.maxBodyBytes := by
  unfold encodeValue
  rw [bind_ok_iff]
  constructor
  · rintro ⟨document, made, encoded⟩
    obtain ⟨rfl, within, -⟩ := (WireDocument.make_iff proper).mp made
    exact ⟨within, WireDocument.encode_iff.mp encoded⟩
  · rintro ⟨within, encoded, room⟩
    have whole : WireDocument.encode ⟨tree, limits⟩ = .ok bytes := WireDocument.encode_iff.mpr ⟨encoded, room⟩
    exact ⟨⟨tree, limits⟩, (WireDocument.make_iff proper).mpr ⟨rfl, within, bytes, whole⟩, whole⟩

/-- What is written depends on the canonical form only. -/
theorem encodeValue_canonical {tree other : ExactTree} (proper : tree.Proper) (proper' : other.Proper)
    (same : tree.canonical = other.canonical) (encoded : encodeValue tree limits = .ok bytes) : encodeValue other limits = .ok bytes := by
  obtain ⟨within, text, room⟩ := (encodeValue_iff proper).mp encoded
  refine (encodeValue_iff proper').mpr ⟨within.of_canonical same, ?_, room⟩
  rwa [← rendered_canonical, ← same, rendered_canonical]

/-- What is written is read as the canonical form. -/
theorem decode_encodeValue {tree : ExactTree} (proper : tree.Proper) (encoded : encodeValue tree limits = .ok bytes)
    (cut : chunks.flatten = bytes) : decodeWireStream chunks limits = .ok ⟨tree.canonical, limits⟩ := by
  obtain ⟨within, text, room⟩ := (encodeValue_iff proper).mp encoded
  rw [decodeWireStream_iff, cut]
  exact ⟨_, text, room, denotes_rendered limits proper within ⟨le_rfl, le_rfl, le_rfl⟩⟩

/-- What is read is written again, in no more bytes. -/
theorem encodeValue_decoded {document : WireDocument} (read : decodeWireStream chunks limits = .ok document) :
    document.limits = limits ∧ document.value.Proper ∧
      ∃ bytes, encodeValue document.value limits = .ok bytes ∧ bytes.length ≤ chunks.flatten.length := by
  obtain ⟨text, isText, room, source, found, items, deep, strings, rfl⟩ := decodeWireStream_iff.mp read
  obtain ⟨plain, same⟩ := Text.encode_iff.mp isText
  have made := document_make plain found (same ▸ room) items deep strings
  obtain ⟨-, within, bytes, encoded⟩ := (WireDocument.make_iff source.proper_denote).mp made
  obtain ⟨written, bound⟩ := WireDocument.encode_iff.mp encoded
  refine ⟨rfl, source.proper_denote, bytes, (encodeValue_iff source.proper_denote).mpr ⟨within, written, bound⟩, ?_⟩
  rw [same, (Text.encode_iff.mp written).2]
  exact rendered_shorter found

/-- A member of a value that is written makes a document. -/
theorem make_member {members : List (Text × ExactTree)} {key : Text} {value : ExactTree} (proper : (ExactTree.object members).Proper)
    (encoded : encodeValue (.object members) limits = .ok bytes) (member : (key, value) ∈ members) :
    WireDocument.make value limits = .ok ⟨value, limits⟩ := by
  obtain ⟨within, text, room⟩ := (encodeValue_iff proper).mp encoded
  have proper' : value.Proper := by
    rw [ExactTree.Proper, ExactTree.properMembers_iff] at proper
    exact proper.2 _ member
  obtain ⟨plain, isBytes⟩ := Text.encode_iff.mp text
  have inner := within.member member
  have clean : value.Strings Plain := inner.strings.imp fun _ admitted => admitted.2
  have lighter := weight_member member
  have whole : (utf8 (rendered (.object members))).length = weight (.object members) := length_rendered _
  have fits : (utf8 (rendered value)).length ≤ limits.maxBodyBytes := by
    rw [length_rendered]
    rw [isBytes] at room
    omega
  have written : WireDocument.encode ⟨value, limits⟩ = .ok (utf8 (rendered value)) :=
    WireDocument.encode_iff.mpr ⟨Text.encode_iff.mpr ⟨plain_rendered clean, rfl⟩, fits⟩
  exact (WireDocument.make_iff proper').mpr ⟨rfl, inner, _, written⟩

end

/-- An envelope is a mapping when its data is one. -/
theorem envelope_proper {m : Metadata} {time : Text} {data : ExactTree} (proper : data.Proper) :
    (ExactTree.object (m.members .str time data)).Proper := by
  rw [ExactTree.Proper, ExactTree.properMembers_iff]
  refine ⟨members_distinct, ?_⟩
  rintro ⟨key, value⟩ member
  by_cases isData : key = "data".codePoints
  · have found := Assoc.lookup_of_mem members_distinct member
    rw [isData, lookup_data] at found
    rw [← Option.some.inj found]
    exact proper
  · have found := Assoc.lookup_of_mem members_distinct member
    rw [lookup_members isData] at found
    obtain ⟨text, -, same⟩ := Option.map_eq_some_iff.mp found
    rw [← same]
    trivial

/-- The canonical form of an envelope has the canonical form of the data. -/
theorem envelope_canonical {m : Metadata} {time : Text} {data : ExactTree} :
    (ExactTree.object (m.members .str time data)).canonical = .object (arranged (m.members .str time data.canonical)) := by
  have same : (m.members ExactTree.str time data).map (fun member => (member.1, member.2.canonical)) =
      m.members .str time data.canonical := by
    unfold Metadata.members
    rw [List.map_append, List.map_cons, List.map_map, List.map_map]
    rfl
  rw [ExactTree.canonical, ExactTree.canonicalMembers_eq, same]

theorem envelope_ok {α : Type} {text : Text → α} {m : Metadata} {data : α} {members : List (Text × α)} :
    envelope text m data = .ok members ↔ ∃ time, IsoLibrary.formatMessageTime m.time = .ok time ∧ members = m.members text time data := by
  unfold envelope
  rw [bind_ok_iff]
  refine exists_congr fun time => and_congr_right fun _ => ?_
  exact ⟨fun same => (Except.ok.inj same).symm, fun same => congrArg _ same.symm⟩

theorem exactPostInit_profile {m : Metadata} (valid : m.exactPostInit = .ok ()) : m.profile = exactMessageProfile := by
  unfold Metadata.exactPostInit at valid
  split at valid
  · cases valid
  · rename_i same
    exact not_not.mp same

theorem ExactMessage.make_ok {metadata : Metadata} {source : ExactTree} {limits : Limits} {message : ExactMessage} :
    ExactMessage.make metadata source limits = .ok message ↔
      WireDocument.make source limits = .ok message.data ∧ metadata.exactPostInit = .ok () ∧ message.metadata = metadata := by
  unfold ExactMessage.make
  constructor
  · intro made
    split at made
    · cases made
    split at made
    · cases made
    · rename_i data documented valid
      cases made
      exact ⟨documented, valid, rfl⟩
  · rintro ⟨documented, valid, rfl⟩
    split
    · rename_i error failed
      rw [documented] at failed
      cases failed
    rename_i data made
    have same : message.data = data := Except.ok.inj (documented.symm.trans made)
    split
    · rename_i error failed
      rw [valid] at failed
      cases failed
    · subst same
      rfl

theorem construct_ok {α β : Type} {library : IsoLibrary} {profile : Text} {metadata : List (Text × Text)} {members : List (Text × β)}
    {make : Metadata → β → Except CodecError α} {message : α} :
    construct library profile metadata members make = .ok message ↔ ∃ written time data made,
      metadata.lookup "time".codePoints = some written ∧ library.parseMessageTime written = .ok time ∧
      members.lookup "data".codePoints = some data ∧
      Metadata.ofArguments (messageArguments metadata) time profile = .ok made ∧ make made data = .ok message := by
  unfold construct
  rw [orShape_ok]
  constructor
  · intro constructed
    obtain ⟨written, timed, constructed⟩ := bind_ok constructed
    obtain ⟨time, parsed, constructed⟩ := bind_ok constructed
    obtain ⟨data, found, constructed⟩ := bind_ok constructed
    obtain ⟨made, argued, constructed⟩ := bind_ok constructed
    exact ⟨written, time, data, made, getItem_ok.mp timed, raising_ok.mp parsed, getItem_ok.mp found, raising_ok.mp argued, constructed⟩
  · rintro ⟨written, time, data, made, timed, parsed, found, argued, constructed⟩
    exact bind_ok_iff.mpr ⟨written, getItem_ok.mpr timed, bind_ok_iff.mpr ⟨time, raising_ok.mpr parsed,
      bind_ok_iff.mpr ⟨data, getItem_ok.mpr found, bind_ok_iff.mpr ⟨made, raising_ok.mpr argued, constructed⟩⟩⟩⟩

namespace ExactJsonMessageCodec
variable {library : IsoLibrary} {codec : ExactJsonMessageCodec} {chunks : List (List UInt8)} {bytes : List UInt8}

theorem encode_ok {message : ExactMessage} : codec.encode (.exact message) = .ok bytes ↔
    ∃ time, IsoLibrary.formatMessageTime message.metadata.time = .ok time ∧
      encodeValue (.object (message.metadata.members .str time message.data.value)) codec.limits = .ok bytes := by
  rw [encode, bind_ok_iff]
  constructor
  · rintro ⟨members, enveloped, encoded⟩
    obtain ⟨time, written, rfl⟩ := envelope_ok.mp (raising_ok.mp enveloped)
    exact ⟨time, written, onWire_ok.mp encoded⟩
  · rintro ⟨time, written, encoded⟩
    exact ⟨_, raising_ok.mpr (envelope_ok.mpr ⟨time, written, rfl⟩), onWire_ok.mpr encoded⟩

/-- The members of an envelope, in whatever order, are read as its message. -/
theorem decodeStream_envelope (library : IsoLibrary) {m : Metadata} {time : Text} {data : ExactTree} {members : List (Text × ExactTree)}
    (read : decodeWireStream chunks codec.limits = .ok ⟨.object members, codec.limits⟩) (valid : m.exactPostInit = .ok ())
    (written : IsoLibrary.formatMessageTime m.time = .ok time) (same : members.Perm (m.members .str time data)) :
    ∃ message, codec.decodeStream library chunks = .ok message ∧ message.metadata = m ∧ message.data = ⟨data, codec.limits⟩ := by
  obtain ⟨-, proper, bytes, encoded, -⟩ := encodeValue_decoded read
  have distinct : (members.map Prod.fst).Nodup := (same.map Prod.fst).nodup_iff.mpr members_distinct
  obtain ⟨texts, accepted, permuted⟩ := metadataOf_envelope same
  rw [exactPostInit_profile valid] at accepted
  obtain ⟨timed, argued⟩ := ofArguments_texts permuted exactMessageProfile
  have found : members.lookup "data".codePoints = some data := (Assoc.lookup_perm distinct same _).trans lookup_data
  have made := make_member proper encoded (Assoc.mem_of_lookup found)
  let message : ExactMessage := ⟨m, ⟨data, codec.limits⟩, ⟨data, codec.limits, made⟩, valid⟩
  have constructed : ExactMessage.make m data codec.limits = .ok message := ExactMessage.make_ok.mpr ⟨made, valid, rfl⟩
  refine ⟨message, ?_, rfl, rfl⟩
  refine bind_ok_iff.mpr ⟨_, onWire_ok.mpr read, bind_ok_iff.mpr ⟨texts, onWire_ok.mpr accepted, ?_⟩⟩
  exact construct_ok.mpr ⟨time, m.time, data, m, timed, IsoLibrary.parseMessageTime_ok.mpr written, found, argued, onWire_ok.mpr constructed⟩

/-- What is read are the members of the envelope of the message. -/
theorem decodeStream_ok {message : ExactMessage} (decoded : codec.decodeStream library chunks = .ok message) :
    ∃ members time, decodeWireStream chunks codec.limits = .ok ⟨.object members, codec.limits⟩ ∧
      IsoLibrary.formatMessageTime message.metadata.time = .ok time ∧
      members.Perm (message.metadata.members .str time message.data.value) ∧ message.data.limits = codec.limits := by
  obtain ⟨document, read, decoded⟩ := bind_ok decoded
  obtain ⟨texts, accepted, decoded⟩ := bind_ok decoded
  obtain ⟨time, t, data, made, timed, parsed, found, argued, constructed⟩ := construct_ok.mp decoded
  rw [onWire_ok] at read accepted constructed
  obtain ⟨value, limits⟩ := document
  obtain ⟨same, proper, bytes, encoded, -⟩ := encodeValue_decoded read
  have same : limits = codec.limits := same
  rw [same] at read
  obtain ⟨members, isObject, -⟩ := metadataOf_ok.mp accepted
  have isObject : value = .object members := isObject
  rw [isObject] at read proper encoded accepted found
  obtain ⟨documented, -, rfl⟩ := ExactMessage.make_ok.mp constructed
  have whole := make_member proper encoded (Assoc.mem_of_lookup found)
  have isData : message.data = ⟨data, codec.limits⟩ := Except.ok.inj (documented.symm.trans whole)
  rw [ExactTree.Proper] at proper
  obtain ⟨permuted, -, isTime⟩ := envelope_of_metadataOf proper.1 accepted timed found argued
  refine ⟨members, time, read, ?_, ?_, ?_⟩
  · rw [isTime]
    exact IsoLibrary.parseMessageTime_ok.mp parsed
  · rw [isData]
    exact permuted
  · rw [isData]

/-- What is written for a message is read as that message, and is written again. -/
theorem read_back (library : IsoLibrary) {message : ExactMessage} (encoded : codec.encode (.exact message) = .ok bytes)
    (cut : chunks.flatten = bytes) :
    ∃ decoded, codec.decodeStream library chunks = .ok decoded ∧ decoded.metadata = message.metadata ∧
      decoded.data.value = message.data.value.canonical ∧ message.data.value.equal decoded.data.value = true ∧
      codec.encode (.exact decoded) = .ok bytes := by
  obtain ⟨source, limits, made⟩ := message.made
  have proper := make_proper made
  obtain ⟨time, written, whole⟩ := encode_ok.mp encoded
  have envelope := @envelope_proper message.metadata time _ proper
  have read := decode_encodeValue envelope whole cut
  rw [envelope_canonical] at read
  obtain ⟨decoded, decodes, isMetadata, isData⟩ :=
    decodeStream_envelope library read message.valid written arranged_perm
  refine ⟨decoded, decodes, isMetadata, ?_, ?_, ?_⟩
  · rw [isData]
  · rw [isData]
    exact ExactTree.equal_canonical proper
  · refine encode_ok.mpr ⟨time, ?_, ?_⟩
    · rw [isMetadata]
      exact written
    · rw [isMetadata, isData]
      refine encodeValue_canonical envelope (envelope_proper (ExactTree.proper_canonical proper)) ?_ whole
      rw [envelope_canonical, envelope_canonical, ExactTree.canonical_canonical]

/-- What is read is written in no more bytes than it was read from. -/
theorem written_shorter {message : ExactMessage} (decoded : codec.decodeStream library chunks = .ok message) :
    ∃ bytes, codec.encode (.exact message) = .ok bytes ∧ bytes.length ≤ chunks.flatten.length := by
  obtain ⟨members, time, read, written, permuted, same⟩ := decodeStream_ok decoded
  obtain ⟨-, proper, bytes, encoded, shorter⟩ := encodeValue_decoded read
  obtain ⟨source, limits, made⟩ := message.made
  have canonical : (ExactTree.object members).canonical =
      (ExactTree.object (message.metadata.members .str time message.data.value)).canonical := by
    rw [ExactTree.Proper] at proper
    exact (ExactTree.canonical_object_iff proper.1).mpr (permuted.map _)
  have whole := encodeValue_canonical proper (envelope_proper (make_proper made)) canonical encoded
  exact ⟨bytes, encode_ok.mpr ⟨time, written, whole⟩, shorter⟩

end ExactJsonMessageCodec

/-- An exact message comes back from its bytes, however they are cut, with every number as its token, and is written as
the same bytes again. Whatever is read is written in no more bytes than it was read from, and comes back from these. -/
theorem exact_codec_round_trip (library : IsoLibrary) (codec : ExactJsonMessageCodec) :
    (∀ message bytes chunks, codec.encode (.exact message) = .ok bytes → chunks.flatten = bytes →
      ∃ decoded, codec.decodeStream library chunks = .ok decoded ∧ decoded.metadata = message.metadata ∧
        decoded.data.value = message.data.value.canonical ∧ message.data.value.equal decoded.data.value = true ∧
        codec.encode (.exact decoded) = .ok bytes) ∧
    ∀ chunks message, codec.decodeStream library chunks = .ok message →
      ∃ bytes again, codec.encode (.exact message) = .ok bytes ∧ bytes.length ≤ chunks.flatten.length ∧
        codec.decode library bytes = .ok again ∧ again.metadata = message.metadata ∧
        message.data.value.equal again.data.value = true ∧ codec.encode (.exact again) = .ok bytes := by
  refine ⟨fun message bytes chunks encoded cut => ExactJsonMessageCodec.read_back library encoded cut, fun chunks message decoded => ?_⟩
  obtain ⟨bytes, wrote, shorter⟩ := ExactJsonMessageCodec.written_shorter decoded
  obtain ⟨again, decodes, isMetadata, -, equal, rewrote⟩ := ExactJsonMessageCodec.read_back library wrote List.flatten_singleton
  exact ⟨bytes, again, wrote, shorter, decodes, isMetadata, equal, rewrote⟩

/-- A library that reads nothing but what `isoformat` writes. -/
def plainLibrary : IsoLibrary where
  isDecimal := JsonText.isDigit
  fromisoformat text :=
    match Sync.parseSyncTimestamp (text.take (text.length - utcSuffix.length) ++ [0x5a]) with
    | .ok read => .ok (.utc read)
    | .error _ => .error (.valueError "Invalid isoformat string")
  ascii _ digit := digit
  reads d whole := by
    have length : (d.stamp ++ utcSuffix).length - utcSuffix.length = d.stamp.length := by
      rw [List.length_append]
      omega
    have read : Sync.parseSyncTimestamp (d.stamp ++ [0x5a]) = .ok d :=
      Sync.parseSyncTimestamp_iff.mpr ⟨whole, (Datetime.milliseconds_eq d).symm⟩
    rw [Datetime.isoformat, length, List.take_left, read]

theorem epoch_valid : Calendar 1970 1 1 0 0 0 0 := by decide

def sampleMetadata (profile : Text) : Metadata :=
  ⟨"m".codePoints, "/s".codePoints, "order.placed".codePoints, "o".codePoints, .utc ⟨1970, 1, 1, 0, 0, 0, 0, epoch_valid⟩,
    "d".codePoints, none, some "c".codePoints, cloudEventsSpecVersion, jsonContentType, profile⟩

/-- A message whose data is a number that Python would write otherwise. -/
def sampleExact : ExactMessage :=
  ⟨sampleMetadata exactMessageProfile, ⟨.number ⟨[0x32, 0x65, 0x2b, 0x31], rfl⟩, .default⟩,
    ⟨.number ⟨[0x32, 0x65, 0x2b, 0x31], rfl⟩, .default, rfl⟩, rfl⟩

def sampleExactCodec : ExactJsonMessageCodec := ⟨.default⟩

def sampleExactBytes : List UInt8 :=
  utf8 (["\x7b\"causationid\":\"c\",\"data\":2e+1,\"datacontenttype\":\"application/json\",\"dataschema\":\"d\",",
    "\"id\":\"m\",\"profile\":\"titect-message/2\",\"source\":\"/s\",\"specversion\":\"1.0\",\"subject\":\"o\",",
    "\"time\":\"1970-01-01T00:00:00.000Z\",\"type\":\"order.placed\"\x7d"].flatMap String.codePoints)

set_option maxRecDepth 20000 in
theorem sampleExact_bytes : sampleExactCodec.encode (.exact sampleExact) = .ok sampleExactBytes := by rfl

/-- The message in two chunks, and what is read from them. -/
theorem sample_exact_round_trip : ∃ decoded bytes again,
    sampleExactCodec.decodeStream plainLibrary [sampleExactBytes.take 9, sampleExactBytes.drop 9] = .ok decoded ∧
    decoded.metadata = sampleExact.metadata ∧ sampleExactCodec.encode (.exact decoded) = .ok bytes ∧
    sampleExactCodec.decode plainLibrary bytes = .ok again ∧ again.metadata = sampleExact.metadata := by
  obtain ⟨decoded, read, isMetadata, -⟩ := (exact_codec_round_trip plainLibrary sampleExactCodec).1 sampleExact sampleExactBytes
    [sampleExactBytes.take 9, sampleExactBytes.drop 9] sampleExact_bytes (by simp)
  obtain ⟨bytes, again, wrote, -, reread, isMetadata', -⟩ := (exact_codec_round_trip plainLibrary sampleExactCodec).2 _ decoded read
  exact ⟨decoded, bytes, again, read, isMetadata, wrote, reread, isMetadata'.trans isMetadata⟩

/-- Exactly the texts within the limits that stand for an envelope in the second profile are read, as its message. -/
theorem exact_codec_accepts_envelopes (library : IsoLibrary) (codec : ExactJsonMessageCodec) (chunks : List (List UInt8))
    (message : ExactMessage) :
    codec.decodeStream library chunks = .ok message ↔ message.data.limits = codec.limits ∧ ∃ text source members time,
      Text.encode text = some chunks.flatten ∧ DocumentText source text ∧ chunks.flatten.length ≤ codec.limits.maxBodyBytes ∧
      source.items ≤ codec.limits.maxJsonItems ∧ source.depth ≤ codec.limits.maxJsonDepth ∧
      (source.Strings fun text => text.length ≤ codec.limits.maxStringLength) ∧ source.denote = .object members ∧
      IsoLibrary.formatMessageTime message.metadata.time = .ok time ∧
      members.Perm (message.metadata.members .str time message.data.value) := by
  constructor
  · intro decoded
    obtain ⟨members, time, read, written, permuted, same⟩ := ExactJsonMessageCodec.decodeStream_ok decoded
    obtain ⟨text, isText, room, source, found, items, deep, strings, whole⟩ := decodeWireStream_iff.mp read
    have isObject : ExactTree.object members = source.denote := congrArg WireDocument.value whole
    exact ⟨same, text, source, members, time, isText, found, room, items, deep, strings, isObject.symm, written, permuted⟩
  · rintro ⟨same, text, source, members, time, isText, found, room, items, deep, strings, isObject, written, permuted⟩
    have read : decodeWireStream chunks codec.limits = .ok ⟨.object members, codec.limits⟩ := by
      rw [← isObject]
      exact decodeWireStream_iff.mpr ⟨text, isText, room, source, found, items, deep, strings, rfl⟩
    obtain ⟨other, decodes, isMetadata, isData⟩ :=
      ExactJsonMessageCodec.decodeStream_envelope library read message.valid written permuted
    rw [← same] at isData
    rw [decodes, ExactMessage.ext isMetadata isData]

end Pytitect.Messaging
