import Pytitect.Messaging.ExactCodec

namespace Pytitect
open Wire Text JsonText

namespace JsonValue
variable {interpreter : Interpreter} {limits : Limits} {items : List JsonValue} {members : List (Text × JsonValue)}

theorem canonical_canonical (value : JsonValue) : value.canonical.canonical = value.canonical := by
  induction value using induct with
  | null => rfl
  | bool value => rfl
  | int value => rfl
  | float bits => rfl
  | str value => rfl
  | list items ih =>
    have same : items.map (canonical ∘ canonical) = items.map canonical := List.map_congr_left ih
    rw [canonical, canonical, canonicalAll_eq, canonicalAll_eq, List.map_map, same]
  | dict members ih =>
    have sorted : arranged (arranged members) = arranged members := List.Pairwise.insertionSort_eq arranged_sorted
    rw [canonical_dict, canonical_dict, arranged_map, sorted, List.map_map]
    refine congrArg JsonValue.dict (List.map_congr_left fun member found => ?_)
    exact Prod.ext rfl (ih member (mem_arranged.mp found))

/-- Whatever is raised is a `ValueError`. -/
def Refusing {α : Type} (result : Except PyError α) : Prop := Only (fun error => Messaging.isValueError error = true) result

theorem charge_refusing (depth count : Nat) : Refusing (charge limits depth count) := by
  unfold charge
  split
  · exact .error rfl
  split
  · exact .error rfl
  · exact .ok _

theorem visitItems_refusing (each : ∀ item ∈ items, ∀ depth count, Refusing (visit limits item depth count)) (depth count : Nat) :
    Refusing (visitItems limits items depth count) := by
  induction items generalizing count with
  | nil => exact .ok _
  | cons item rest ih =>
    rw [List.forall_mem_cons] at each
    exact (each.1 depth count).bind fun counted _ => ih each.2 counted

theorem visitMembers_refusing (each : ∀ member ∈ members, ∀ depth count, Refusing (visit limits member.2 depth count))
    (depth count : Nat) : Refusing (visitMembers limits members depth count) := by
  induction members generalizing count with
  | nil => exact .ok _
  | cons member rest ih =>
    rw [List.forall_mem_cons] at each
    rw [visitMembers]
    split
    · exact .error rfl
    · exact (each.1 depth count).bind fun counted _ => ih each.2 counted

theorem visit_refusing (value : JsonValue) (depth count : Nat) : Refusing (visit limits value depth count) := by
  induction value using induct generalizing depth count with
  | null => exact charge_refusing depth count
  | bool value => exact charge_refusing depth count
  | int value => exact charge_refusing depth count
  | float bits =>
    refine (charge_refusing depth count).bind fun charged _ => ?_
    split
    · exact .ok _
    · exact .error rfl
  | str value =>
    refine (charge_refusing depth count).bind fun charged _ => ?_
    split
    · exact .error rfl
    · exact .ok _
  | list items ih => exact (charge_refusing depth count).bind fun charged _ => visitItems_refusing ih (depth + 1) charged
  | dict members ih => exact (charge_refusing depth count).bind fun charged _ => visitMembers_refusing ih (depth + 1) charged

theorem dumps_refusing (sortKeys : Bool) (value : JsonValue) : Refusing (dumps interpreter sortKeys value) := by
  induction value using induct with
  | null => exact .ok _
  | bool value =>
    cases value with
    | true => exact .ok _
    | false => exact .ok _
  | int value =>
    rw [dumps, intRepr]
    split
    · exact .ok _
    · exact .error rfl
  | float bits => exact .ok _
  | str value => exact .ok _
  | list items ih =>
    have all : Refusing (dumpsAll interpreter sortKeys items) := by
      induction items with
      | nil => exact .ok _
      | cons item rest later =>
        rw [List.forall_mem_cons] at ih
        exact ih.1.bind fun _ _ => (later ih.2).bind fun _ _ => .ok _
    exact all.bind fun _ _ => .ok _
  | dict members ih =>
    have all : Refusing (dumpsMembers interpreter sortKeys members) := by
      induction members with
      | nil => exact .ok _
      | cons member rest later =>
        rw [List.forall_mem_cons] at ih
        exact ih.1.bind fun _ _ => (later ih.2).bind fun _ _ => .ok _
    exact all.bind fun _ _ => .ok _

/-- `canonical_json_bytes` raises `ValueError` only. -/
theorem canonicalJsonBytes_refusing (value : JsonValue) : Refusing (canonicalJsonBytes interpreter value) := by
  have valid : Refusing (validateJson value .default) := by
    unfold validateJson
    have visited := @visit_refusing .default value 0 0
    cases result : value.visit .default 0 0 with
    | error error => exact .error (visited error result)
    | ok counted => exact .ok _
  refine valid.bind fun _ _ => (dumps_refusing true value).bind fun text _ => ?_
  split
  · exact .ok _
  · exact .error rfl

end JsonValue

namespace Wire
variable {number : ExactNumber} {checked : Bool} {interpreter : Interpreter}

/-- The token of an integer that was read stands at the end of the token it was read from: only the sign of a zero is gone. -/
theorem intToken_suffix {n : Int} (read : number.toInt = .ok n) : (JsonValue.intToken n).token <:+ number.token := by
  obtain ⟨integer, value⟩ := toInt_iff.mp read
  obtain ⟨sign, digits, signed, proper, split⟩ := isInteger_iff.mp integer
  have numeral := Decimal.numeral_read proper
  have token : (JsonValue.intToken n).token = Decimal.signed n := rfl
  rw [token]
  unfold Decimal.signed
  rcases signed with rfl | rfl
  · have plain := numeral_not_sign (Decimal.read digits)
    rw [numeral] at plain
    have positive : isNegative number.token = false := by
      rw [split]
      exact decide_eq_false plain.1
    have isValue : n = (Decimal.read digits : Int) := by
      rw [value, integerValue, positive, if_neg (by decide), split, List.nil_append, plain.2]
    rw [if_neg (by omega), isValue, Int.natAbs_natCast, numeral, split]
    exact List.suffix_rfl
  · have negative : isNegative number.token = true := by
      rw [split]
      rfl
    have after : afterSign number.token = digits := by
      rw [split]
      rfl
    have isValue : n = -(Decimal.read digits : Int) := by
      rw [value, integerValue, negative, if_pos rfl, after]
    have absolute : n.natAbs = Decimal.read digits := by omega
    rw [absolute, numeral, split]
    by_cases below : n < 0
    · rw [if_pos below]
      exact List.suffix_rfl
    · rw [if_neg below]
      exact List.suffix_cons _ _

theorem ordinaryNumber_toInt {n : Int} (read : ordinaryNumber checked number = .ok (.int n)) : number.toInt = .ok n := by
  unfold ordinaryNumber at read
  split at read
  · cases found : number.toInt with
    | error error =>
      rw [found] at read
      cases read
    | ok m =>
      rw [found] at read
      cases read
      rfl
  split at read
  · cases found : number.toFloat with
    | error error =>
      rw [found] at read
      cases read
    | ok bits =>
      rw [found] at read
      cases read
  split at read
  · cases read
  · cases read

/-- A converted value without floats is written in no more bytes. -/
theorem weight_convert {tree : ExactTree} {item : JsonValue} (found : convert (ordinaryNumber checked) tree = .ok item)
    (integral : item.Integral) : weight (item.exact interpreter) ≤ weight tree := by
  unfold JsonValue.Integral at integral
  induction tree using ExactTree.induct generalizing item with
  | null =>
    cases found
    exact le_rfl
  | bool value =>
    cases found
    exact le_rfl
  | str value =>
    cases found
    exact le_rfl
  | number value =>
    have found : ordinaryNumber checked value = .ok item := found
    rcases ordinaryNumber_numeric value item found with ⟨n, rfl⟩ | ⟨bits, rfl, -⟩
    · exact length_utf8_le (intToken_suffix (ordinaryNumber_toInt found))
    · exact integral.elim
  | array values ih =>
    obtain ⟨items, rfl, all⟩ := convert_array_iff.mp found
    clear found
    rw [JsonValue.exact, weight, weight]
    rw [JsonValue.Numbers] at integral
    have less : weightAll (JsonValue.exactAll interpreter items) ≤ weightAll values := by
      induction all with
      | nil => exact le_rfl
      | cons read _ ihRest =>
        rw [List.forall_mem_cons] at ih
        have first := ih.1 read integral.1
        have later := ihRest ih.2 integral.2
        rw [JsonValue.exactAll, weightAll, weightAll]
        omega
    omega
  | object members ih =>
    obtain ⟨others, rfl, all⟩ := convert_object_iff.mp found
    clear found
    rw [JsonValue.exact, weight, weight]
    rw [JsonValue.Numbers] at integral
    have less : weightMembers (JsonValue.exactMembers interpreter others) ≤ weightMembers members := by
      induction all with
      | nil => exact le_rfl
      | @cons member other _ _ read _ ihRest =>
        obtain ⟨key, value⟩ := member
        obtain ⟨key', item⟩ := other
        obtain ⟨rfl, read⟩ := read
        rw [List.forall_mem_cons] at ih
        have first := ih.1 read integral.1
        have later := ihRest ih.2 integral.2
        rw [JsonValue.exactMembers, weightMembers, weightMembers]
        dsimp only at first ⊢
        omega
    omega

section
variable {number : ExactNumber → Except WireError JsonValue} {members : List (Text × ExactTree)} {others : List (Text × JsonValue)}

/-- What a `dict` is converted to is found under the same keys. -/
theorem lookup_converted (all : List.Forall₂ (fun member other => member.1 = other.1 ∧ convert number member.2 = .ok other.2) members others)
    (key : Text) : (members.lookup key = none ∧ others.lookup key = none) ∨ ∃ tree item, members.lookup key = some tree ∧
      others.lookup key = some item ∧ convert number tree = .ok item := by
  induction all with
  | nil => exact .inl ⟨rfl, rfl⟩
  | @cons member other _ _ read _ ih =>
    obtain ⟨name, tree⟩ := member
    obtain ⟨name', item⟩ := other
    obtain ⟨rfl, read⟩ := read
    rw [List.lookup_cons, List.lookup_cons]
    cases key == name with
    | true => exact .inr ⟨tree, item, rfl, rfl, read⟩
    | false => exact ih

theorem converted_exists (each : ∀ member ∈ members, ∃ item, convert number member.2 = .ok item) :
    ∃ others : List (Text × JsonValue), List.Forall₂ (fun member other => member.1 = other.1 ∧ convert number member.2 = .ok other.2) members others := by
  induction members with
  | nil => exact ⟨[], .nil⟩
  | cons member rest ih =>
    rw [List.forall_mem_cons] at each
    obtain ⟨item, read⟩ := each.1
    obtain ⟨others, all⟩ := ih each.2
    exact ⟨(member.1, item) :: others, .cons ⟨rfl, read⟩ all⟩

/-- Mappings are converted to mappings. -/
theorem convert_proper (numeric : Numeric number) {tree : ExactTree} {item : JsonValue} (proper : tree.Proper)
    (found : convert number tree = .ok item) : item.Proper := by
  induction tree using ExactTree.induct generalizing item with
  | null =>
    cases found
    trivial
  | bool value =>
    cases found
    trivial
  | number value =>
    rcases numeric value item found with ⟨n, rfl⟩ | ⟨bits, rfl, -⟩
    · trivial
    · trivial
  | str value =>
    cases found
    trivial
  | array values ih =>
    obtain ⟨items, rfl, all⟩ := convert_array_iff.mp found
    clear found
    rw [ExactTree.Proper, ExactTree.properAll_iff] at proper
    rw [JsonValue.Proper]
    induction all with
    | nil => trivial
    | cons read _ ihRest =>
      rw [List.forall_mem_cons] at ih proper
      exact ⟨ih.1 proper.1 read, ihRest ih.2 proper.2⟩
  | object members ih =>
    obtain ⟨others, rfl, all⟩ := convert_object_iff.mp found
    clear found
    rw [ExactTree.Proper, ExactTree.properMembers_iff] at proper
    have keys : others.map Prod.fst = members.map Prod.fst := by
      clear ih proper
      induction all with
      | nil => rfl
      | cons read _ ihRest => rw [List.map_cons, List.map_cons, read.1, ihRest]
    rw [JsonValue.Proper, keys]
    refine ⟨proper.1, ?_⟩
    have inner := proper.2
    clear proper keys
    induction all with
    | nil => trivial
    | cons read _ ihRest =>
      rw [List.forall_mem_cons] at ih inner
      exact ⟨ih.1 inner.1 read.2, ihRest ih.2 inner.2⟩

end

end Wire

namespace Messaging

section
variable {m : Metadata} {time : Text}

/-- A member of an envelope is a text or the data. -/
theorem mem_members {α : Type} {text : Text → α} {data : α} {member : Text × α} (there : member ∈ m.members text time data) :
    member = ("data".codePoints, data) ∨ ∃ found, member.2 = text found := by
  rw [Metadata.members, List.mem_append, List.mem_cons, List.mem_map, List.mem_map] at there
  rcases there with ⟨entry, -, rfl⟩ | isData | ⟨entry, -, rfl⟩
  · exact .inr ⟨entry.2, rfl⟩
  · exact .inl isData
  · exact .inr ⟨entry.2, rfl⟩

variable {data : JsonValue} {interpreter : Interpreter}

theorem members_exact : (JsonValue.dict (m.members .str time data)).exact interpreter =
    .object (m.members .str time (data.exact interpreter)) := by
  rw [JsonValue.exact, JsonValue.exactMembers_eq, Metadata.members, Metadata.members, List.map_append, List.map_cons,
    List.map_map, List.map_map]
  rfl

theorem members_integral (integral : data.Integral) : (JsonValue.dict (m.members .str time data)).Integral := by
  rw [JsonValue.Integral, JsonValue.Numbers, JsonValue.numbersMembers_iff]
  intro member there
  rcases mem_members there with rfl | ⟨found, isText⟩
  · exact integral
  · rw [isText]
    trivial

/-- What the constructor requires besides of the data. -/
structure Metadata.Valid (m : Metadata) : Prop where
  id : isNamed m.id = true
  source : isNamed m.source = true
  subject : isNamed m.subject = true
  dataschema : isNamed m.dataschema = true
  type : isEventType m.type = true
  correlationid : m.correlationid.all isNamed = true
  causationid : m.causationid.all isNamed = true
  specversion : m.specversion = cloudEventsSpecVersion
  datacontenttype : m.datacontenttype = jsonContentType
  profile : m.profile = messageProfile
  time : IsoLibrary.requireMillisecondUtc m.time = .ok ()

theorem postInit_iff : m.postInit data = .ok () ↔ m.Valid ∧ validateJson data .default = .ok () := by
  unfold Metadata.postInit
  constructor
  · intro valid
    obtain ⟨_, first, valid⟩ := bind_ok valid
    obtain ⟨_, second, valid⟩ := bind_ok valid
    obtain ⟨_, third, valid⟩ := bind_ok valid
    obtain ⟨_, fourth, valid⟩ := bind_ok valid
    obtain ⟨_, fifth, valid⟩ := bind_ok valid
    obtain ⟨_, sixth, valid⟩ := bind_ok valid
    obtain ⟨_, seventh, valid⟩ := bind_ok valid
    obtain ⟨_, eighth, valid⟩ := bind_ok valid
    obtain ⟨_, ninth, valid⟩ := bind_ok valid
    obtain ⟨_, tenth, valid⟩ := bind_ok valid
    obtain ⟨_, last, valid⟩ := bind_ok valid
    exact ⟨⟨ensure_ok.mp first, ensure_ok.mp second, ensure_ok.mp third, ensure_ok.mp fourth, ensure_ok.mp fifth,
      ensure_ok.mp sixth, ensure_ok.mp seventh, of_decide_eq_true (ensure_ok.mp eighth), of_decide_eq_true (ensure_ok.mp ninth),
      of_decide_eq_true (ensure_ok.mp tenth), last⟩, valid⟩
  · rintro ⟨valid, checked⟩
    rw [ensure_ok.mpr valid.id, ensure_ok.mpr valid.source, ensure_ok.mpr valid.subject, ensure_ok.mpr valid.dataschema,
      ensure_ok.mpr valid.type, ensure_ok.mpr valid.correlationid, ensure_ok.mpr valid.causationid,
      ensure_ok.mpr (decide_eq_true valid.specversion), ensure_ok.mpr (decide_eq_true valid.datacontenttype),
      ensure_ok.mpr (decide_eq_true valid.profile), valid.time]
    exact checked

theorem Message.make_ok {metadata : Metadata} {data : JsonValue} {message : Message} : Message.make metadata data = .ok message ↔
    message.metadata = metadata ∧ message.data = data := by
  unfold Message.make
  constructor
  · intro made
    split at made
    · split at made
      · cases made
      · cases made
        exact ⟨rfl, rfl⟩
    · cases made
  · rintro ⟨rfl, rfl⟩
    rw [dif_pos message.proper]
    split
    · rename_i error failed
      rw [message.valid] at failed
      cases failed
    · rfl

theorem orElse_ok {α : Type} {result : Except PyError α} {next : Except CodecError α} {value : α} (refusing : JsonValue.Refusing result) :
    orElse result next = .ok value ↔ result = .ok value ∨ (∃ error, result = .error error) ∧ next = .ok value := by
  cases result with
  | ok found => simp [orElse]
  | error error =>
    have caught : isValueError error = true := refusing error rfl
    simp [orElse, caught]

end

namespace JsonMessageCodec
variable {interpreter : Interpreter} {library : IsoLibrary} {codec : JsonMessageCodec} {chunks : List (List UInt8)} {bytes : List UInt8}

/-- The bounds on values do not look at the bytes. -/
theorem within_selected {tree : ExactTree} {depth count : Nat} :
    Within codec.selected tree depth count ↔ Within codec.limits tree depth count :=
  ⟨fun within => ⟨within.items, within.depth, within.strings⟩, fun within => ⟨within.items, within.depth, within.strings⟩⟩

/-- A message without floats is written as an exact document with its envelope would be, whichever of the two encoders
does it. -/
theorem encode_ok {message : Message} (integral : message.data.Integral) : codec.encode interpreter (.legacy message) = .ok bytes ↔
    ∃ time, IsoLibrary.formatMessageTime message.metadata.time = .ok time ∧
      encodeValue (.object (message.metadata.members .str time (message.data.exact interpreter))) codec.selected = .ok bytes := by
  have proper : ∀ time, (ExactTree.object (message.metadata.members .str time (message.data.exact interpreter))).Proper :=
    fun time => envelope_proper (JsonValue.exact_proper message.proper)
  have whole : ∀ time, (JsonValue.dict (message.metadata.members .str time message.data)).Integral := fun time =>
    members_integral integral
  have legacy : ∀ time, legacyValue interpreter (.dict (message.metadata.members .str time message.data)) =
      .ok (.object (message.metadata.members .str time (message.data.exact interpreter))) := fun time => by
    rw [legacyValue_eq (whole time).finite, members_exact]
  rw [encode, bind_ok_iff]
  constructor
  · rintro ⟨members, enveloped, encoded⟩
    obtain ⟨time, written, rfl⟩ := envelope_ok.mp (raising_ok.mp enveloped)
    obtain ⟨⟨⟩, valid, encoded⟩ := bind_ok encoded
    obtain ⟨found, encodes, encoded⟩ := bind_ok encoded
    split at encoded
    · cases encoded
    rename_i short
    cases encoded
    refine ⟨time, written, ?_⟩
    rcases (orElse_ok (JsonValue.canonicalJsonBytes_refusing _)).mp encodes with canonical | ⟨-, fallback⟩
    · obtain ⟨-, -, isText⟩ := JsonValue.canonicalJsonBytes_ok.mp canonical
      have plain := (Text.encode_iff.mp isText).1
      have strings : ((JsonValue.dict (message.metadata.members .str time message.data)).exact interpreter).Strings Plain := by
        rw [← ExactTree.strings_canonical, ← plain_written, ← rendered_eq]
        exact plain
      have within := (JsonValue.validateJson_within (whole time) strings).mp (raising_ok.mp valid)
      rw [members_exact] at isText within
      exact (encodeValue_iff (proper time)).mpr ⟨within_selected.mpr within, isText, Nat.not_lt.mp short⟩
    · obtain ⟨value, read, encoded⟩ := bind_ok fallback
      rw [onWire_ok, legacy time] at read
      cases read
      exact onWire_ok.mp encoded
  · rintro ⟨time, written, encoded⟩
    obtain ⟨within, isText, room⟩ := (encodeValue_iff (proper time)).mp encoded
    have strings : ((JsonValue.dict (message.metadata.members .str time message.data)).exact interpreter).Strings Plain := by
      rw [members_exact]
      exact within.strings.imp fun _ admitted => admitted.2
    have valid : validateJson (.dict (message.metadata.members .str time message.data)) codec.limits = .ok () := by
      refine (JsonValue.validateJson_within (whole time) strings).mpr ?_
      rw [members_exact]
      exact within_selected.mp within
    refine ⟨_, raising_ok.mpr (envelope_ok.mpr ⟨time, written, rfl⟩), bind_ok_iff.mpr ⟨(), raising_ok.mpr valid, ?_⟩⟩
    refine bind_ok_iff.mpr ⟨bytes, (orElse_ok (JsonValue.canonicalJsonBytes_refusing _)).mpr ?_, if_neg (Nat.not_lt.mpr room)⟩
    cases canonical : canonicalJsonBytes interpreter (.dict (message.metadata.members .str time message.data)) with
    | ok found =>
      obtain ⟨-, -, isText'⟩ := JsonValue.canonicalJsonBytes_ok.mp canonical
      rw [members_exact, isText] at isText'
      exact .inl (congrArg _ (Option.some.inj isText').symm)
    | error error =>
      exact .inr ⟨⟨error, rfl⟩, bind_ok_iff.mpr ⟨_, onWire_ok.mpr (legacy time), onWire_ok.mpr encoded⟩⟩

/-- The members of an envelope, in whatever order, are read as its message when the data can be converted. -/
theorem decodeStream_envelope (library : IsoLibrary) {m : Metadata} {time : Text} {tree : ExactTree} {data : JsonValue} {members : List (Text × ExactTree)}
    (read : decodeWireStream chunks codec.selected = .ok ⟨.object members, codec.selected⟩) (valid : m.postInit data = .ok ())
    (written : IsoLibrary.formatMessageTime m.time = .ok time) (same : members.Perm (m.members .str time tree))
    (converted : ordinary false tree = .ok data) :
    ∃ message, codec.decodeStream library chunks = .ok message ∧ message.metadata = m ∧ message.data = data := by
  obtain ⟨-, proper, -⟩ := encodeValue_decoded read
  rw [ExactTree.Proper, ExactTree.properMembers_iff] at proper
  obtain ⟨texts, accepted, permuted⟩ := metadataOf_envelope same
  rw [(postInit_iff.mp valid).1.profile] at accepted
  obtain ⟨timed, argued⟩ := ofArguments_texts permuted messageProfile
  have found : members.lookup "data".codePoints = some tree := (Assoc.lookup_perm proper.1 same _).trans lookup_data
  have each : ∀ member ∈ members, ∃ item, convert (ordinaryNumber false) member.2 = .ok item := by
    intro member there
    rcases mem_members (same.mem_iff.mp there) with rfl | ⟨text, isText⟩
    · exact ⟨data, converted⟩
    · exact ⟨.str text, by rw [isText]; rfl⟩
  obtain ⟨others, all⟩ := converted_exists each
  have isDict : ordinary false (.object members) = .ok (.dict others) := convert_object_iff.mpr ⟨others, rfl, all⟩
  have isData : others.lookup "data".codePoints = some data := by
    rcases lookup_converted all "data".codePoints with ⟨absent, -⟩ | ⟨tree', item, there, isItem, read'⟩
    · rw [found] at absent
      cases absent
    · rw [found] at there
      cases there
      have converted : convert (ordinaryNumber false) tree = .ok data := converted
      rw [isItem, Except.ok.inj (read'.symm.trans converted)]
  have inner := proper.2 _ (Assoc.mem_of_lookup found)
  let message : Message := ⟨m, data, convert_proper ordinaryNumber_numeric inner converted, valid⟩
  have made : Message.make m data = .ok message := Message.make_ok.mpr ⟨rfl, rfl⟩
  refine ⟨message, ?_, rfl, rfl⟩
  refine bind_ok_iff.mpr ⟨_, onWire_ok.mpr read, bind_ok_iff.mpr ⟨texts, onWire_ok.mpr accepted,
    bind_ok_iff.mpr ⟨_, onWire_ok.mpr isDict, ?_⟩⟩⟩
  exact construct_ok.mpr ⟨time, m.time, data, m, timed, IsoLibrary.parseMessageTime_ok.mpr written, isData, argued, raising_ok.mpr made⟩

/-- What is read are the members of the envelope of the message, with its data as it was before the conversion. -/
theorem decodeStream_ok {message : Message} (decoded : codec.decodeStream library chunks = .ok message) :
    ∃ members time tree, decodeWireStream chunks codec.selected = .ok ⟨.object members, codec.selected⟩ ∧
      IsoLibrary.formatMessageTime message.metadata.time = .ok time ∧ members.Perm (message.metadata.members .str time tree) ∧
      ordinary false tree = .ok message.data := by
  obtain ⟨document, read, decoded⟩ := bind_ok decoded
  obtain ⟨texts, accepted, decoded⟩ := bind_ok decoded
  obtain ⟨value, isValue, decoded⟩ := bind_ok decoded
  obtain ⟨time, t, data, made, timed, parsed, isData, argued, constructed⟩ := construct_ok.mp decoded
  rw [onWire_ok] at read accepted isValue
  rw [raising_ok, Message.make_ok] at constructed
  obtain ⟨rfl, rfl⟩ := constructed
  obtain ⟨tree, limits⟩ := document
  obtain ⟨same, proper, -⟩ := encodeValue_decoded read
  have same : limits = codec.selected := same
  rw [same] at read
  obtain ⟨members, isObject, -⟩ := metadataOf_ok.mp accepted
  have isObject : tree = .object members := isObject
  rw [isObject] at read accepted proper isValue
  obtain ⟨others, rfl, all⟩ := convert_object_iff.mp isValue
  have isData : others.lookup "data".codePoints = some message.data := isData
  rcases lookup_converted all "data".codePoints with ⟨-, absent⟩ | ⟨inner, item, found, isItem, converted⟩
  · rw [isData] at absent
    cases absent
  rw [isData] at isItem
  cases isItem
  rw [ExactTree.Proper] at proper
  obtain ⟨permuted, -, isTime⟩ := envelope_of_metadataOf proper.1 accepted timed found argued
  refine ⟨members, time, inner, read, ?_, permuted, converted⟩
  rw [isTime]
  exact IsoLibrary.parseMessageTime_ok.mp parsed

/-- What is written for a message without floats is read as that message, and is written again. -/
theorem read_back (library : IsoLibrary) {message : Message} (integral : message.data.Integral)
    (encoded : codec.encode interpreter (.legacy message) = .ok bytes) (cut : chunks.flatten = bytes) :
    ∃ decoded, codec.decodeStream library chunks = .ok decoded ∧ decoded.metadata = message.metadata ∧
      message.data.Same decoded.data ∧ codec.encode interpreter (.legacy decoded) = .ok bytes := by
  obtain ⟨time, written, whole⟩ := (encode_ok integral).mp encoded
  have proper := @envelope_proper message.metadata time _ (@JsonValue.exact_proper interpreter _ message.proper)
  have read := decode_encodeValue proper whole cut
  rw [envelope_canonical, ← JsonValue.exact_canonical] at read
  have same : message.data.Same message.data.canonical := (JsonValue.canonical_canonical message.data).symm
  have integral' : message.data.canonical.Integral := JsonValue.numbers_canonical.mpr integral
  have valid : message.metadata.postInit message.data.canonical = .ok () := by
    obtain ⟨fields, checked⟩ := postInit_iff.mp message.valid
    obtain ⟨items, admissible⟩ := (JsonValue.validateJson_iff interpreter).mp checked
    refine postInit_iff.mpr ⟨fields, (JsonValue.validateJson_iff interpreter).mpr ⟨?_, same.admissible admissible⟩⟩
    rwa [← same.items_eq]
  obtain ⟨decoded, decodes, isMetadata, isData⟩ :=
    decodeStream_envelope library read valid written arranged_perm (ordinary_exact integral')
  refine ⟨decoded, decodes, isMetadata, ?_, ?_⟩
  · rw [isData]
    exact same
  · refine (encode_ok (isData ▸ integral')).mpr ⟨time, ?_, ?_⟩
    · rw [isMetadata]
      exact written
    · refine encodeValue_canonical proper (envelope_proper (JsonValue.exact_proper decoded.proper)) ?_ whole
      rw [isMetadata, isData, envelope_canonical, envelope_canonical, JsonValue.exact_canonical, ExactTree.canonical_canonical]

end JsonMessageCodec

/-- A member that takes no more room than another keeps the bounds in its place. -/
theorem encodeValue_replaced {front back : List (Text × ExactTree)} {key : Text} {first second : ExactTree} {limits : Limits}
    {bytes : List UInt8} (proper : (ExactTree.object (front ++ (key, first) :: back)).Proper)
    (proper' : (ExactTree.object (front ++ (key, second) :: back)).Proper) (items : second.items = first.items)
    (deep : second.depth = first.depth) (strings : ∀ test, second.Strings test ↔ first.Strings test)
    (lighter : weight second ≤ weight first) (encoded : encodeValue (.object (front ++ (key, first) :: back)) limits = .ok bytes) :
    ∃ bytes', encodeValue (.object (front ++ (key, second) :: back)) limits = .ok bytes' ∧ bytes'.length ≤ bytes.length := by
  obtain ⟨within, isText, room⟩ := (encodeValue_iff proper).mp encoded
  obtain ⟨plain, isBytes⟩ := Text.encode_iff.mp isText
  have weights : weight (.object (front ++ (key, second) :: back)) ≤ weight (.object (front ++ (key, first) :: back)) := by
    rw [weight, weight, weightMembers_eq, weightMembers_eq, List.map_append, List.map_append, List.map_cons, List.map_cons,
      List.sum_append, List.sum_append, List.sum_cons, List.sum_cons, memberWeight, memberWeight]
    dsimp only
    omega
  have within' : Within limits (.object (front ++ (key, second) :: back)) 0 0 := by
    obtain ⟨counted, nested, texts⟩ := within
    refine ⟨?_, ?_, ?_⟩
    · rw [ExactTree.items, ExactTree.itemsMembers_eq, List.map_append, List.map_cons, List.sum_append, List.sum_cons] at counted ⊢
      rw [items]
      exact counted
    · rw [Nat.zero_add, ExactTree.depth, ExactTree.depthMembers_le, List.forall_mem_append, List.forall_mem_cons] at nested ⊢
      exact ⟨nested.1, deep ▸ nested.2.1, nested.2.2⟩
    · rw [ExactTree.Strings, ExactTree.stringsMembers_iff, List.forall_mem_append, List.forall_mem_cons] at texts ⊢
      exact ⟨texts.1, ⟨texts.2.1.1, (strings _).mpr texts.2.1.2⟩, texts.2.2⟩
  have clean := within'.strings.imp fun _ admitted => admitted.2
  have written : Text.encode (rendered (.object (front ++ (key, second) :: back))) = some (utf8 (rendered (.object (front ++ (key, second) :: back)))) :=
    Text.encode_iff.mpr ⟨plain_rendered clean, rfl⟩
  have shorter : (utf8 (rendered (.object (front ++ (key, second) :: back)))).length ≤ bytes.length := by
    rw [isBytes, length_rendered, length_rendered]
    exact weights
  exact ⟨_, (encodeValue_iff proper').mpr ⟨within', written, shorter.trans room⟩, shorter⟩

/-- What is read without floats is written in no more bytes than it was read from. -/
theorem JsonMessageCodec.written_shorter (interpreter : Interpreter) {library : IsoLibrary} {codec : JsonMessageCodec}
    {chunks : List (List UInt8)} {message : Message} (decoded : codec.decodeStream library chunks = .ok message)
    (integral : message.data.Integral) :
    ∃ bytes, codec.encode interpreter (.legacy message) = .ok bytes ∧ bytes.length ≤ chunks.flatten.length := by
  obtain ⟨members, time, tree, read, written, permuted, converted⟩ := JsonMessageCodec.decodeStream_ok decoded
  obtain ⟨-, proper, bytes, encoded, shorter⟩ := encodeValue_decoded read
  have mapping := proper
  rw [ExactTree.Proper, ExactTree.properMembers_iff] at mapping
  have inner : tree.Proper := mapping.2 _ (permuted.mem_iff.mpr (Assoc.mem_of_lookup lookup_data))
  have canonical := (ExactTree.canonical_object_iff mapping.1).mpr (permuted.map fun member => (member.1, member.2.canonical))
  have whole := encodeValue_canonical proper (envelope_proper inner) canonical encoded
  obtain ⟨items, deep, strings, -⟩ := convert_shape interpreter ordinaryNumber_numeric converted
  have lighter := @weight_convert _ interpreter _ _ converted integral
  obtain ⟨bytes', encoded', shorter'⟩ := encodeValue_replaced (envelope_proper inner) (envelope_proper (JsonValue.exact_proper message.proper))
    items deep strings lighter whole
  exact ⟨bytes', (JsonMessageCodec.encode_ok integral).mpr ⟨time, written, encoded'⟩, shorter'.trans shorter⟩

/-- A message without floats comes back from its bytes, however they are cut and whichever of the two encoders wrote
them, up to the order of members, and is written as the same bytes again. Whatever is read without floats is written in
no more bytes than it was read from, and comes back from these. -/
theorem json_codec_round_trip (interpreter : Interpreter) (library : IsoLibrary) (codec : JsonMessageCodec) :
    (∀ message bytes chunks, message.data.Integral → codec.encode interpreter (.legacy message) = .ok bytes → chunks.flatten = bytes →
      ∃ decoded, codec.decodeStream library chunks = .ok decoded ∧ decoded.metadata = message.metadata ∧
        message.data.Same decoded.data ∧ codec.encode interpreter (.legacy decoded) = .ok bytes) ∧
    ∀ chunks message, codec.decodeStream library chunks = .ok message → message.data.Integral →
      ∃ bytes again, codec.encode interpreter (.legacy message) = .ok bytes ∧ bytes.length ≤ chunks.flatten.length ∧
        codec.decodeRaw library bytes = .ok again ∧ again.metadata = message.metadata ∧ message.data.Same again.data ∧
        codec.encode interpreter (.legacy again) = .ok bytes := by
  refine ⟨fun message bytes chunks integral encoded cut => JsonMessageCodec.read_back library integral encoded cut,
    fun chunks message decoded integral => ?_⟩
  obtain ⟨bytes, wrote, shorter⟩ := JsonMessageCodec.written_shorter interpreter decoded integral
  obtain ⟨again, decodes, isMetadata, same, rewrote⟩ := JsonMessageCodec.read_back library integral wrote List.flatten_singleton
  exact ⟨bytes, again, wrote, shorter, decodes, isMetadata, same, rewrote⟩

/-- A message with an integer that has more digits than the interpreter writes. -/
def sampleLegacy : Message :=
  ⟨sampleMetadata messageProfile, .dict [("n".codePoints, .int (-10))], ⟨List.nodup_singleton _, trivial, trivial⟩, rfl⟩

def sampleCodec : JsonMessageCodec := ⟨.default, 300, by decide⟩

/-- An interpreter that writes integers of one digit only. -/
def terseInterpreter : Interpreter := ⟨fun _ => JsonValue.intToken 0, 1⟩

def sampleLegacyBytes : List UInt8 :=
  utf8 (["\x7b\"causationid\":\"c\",\"data\":\x7b\"n\":-10\x7d,\"datacontenttype\":\"application/json\",\"dataschema\":\"d\",",
    "\"id\":\"m\",\"profile\":\"titect-message/1\",\"source\":\"/s\",\"specversion\":\"1.0\",\"subject\":\"o\",",
    "\"time\":\"1970-01-01T00:00:00.000Z\",\"type\":\"order.placed\"\x7d"].flatMap String.codePoints)

set_option maxRecDepth 20000 in
theorem sampleLegacy_bytes : sampleCodec.encode terseInterpreter (.legacy sampleLegacy) = .ok sampleLegacyBytes := by rfl

/-- The message is written by the second encoder. -/
theorem sample_json_round_trip : ∃ decoded bytes again,
    sampleCodec.decodeStream plainLibrary [sampleLegacyBytes] = .ok decoded ∧ sampleLegacy.data.Same decoded.data ∧
    sampleCodec.encode terseInterpreter (.legacy decoded) = .ok bytes ∧ sampleCodec.decodeRaw plainLibrary bytes = .ok again ∧
    decoded.data.Same again.data := by
  have integral : sampleLegacy.data.Integral := ⟨trivial, trivial⟩
  obtain ⟨decoded, read, isMetadata, same, -⟩ := (json_codec_round_trip terseInterpreter plainLibrary sampleCodec).1 sampleLegacy
    sampleLegacyBytes [sampleLegacyBytes] integral sampleLegacy_bytes List.flatten_singleton
  obtain ⟨bytes, again, wrote, -, reread, -, same', -⟩ :=
    (json_codec_round_trip terseInterpreter plainLibrary sampleCodec).2 _ decoded read (same.numbers.mp integral)
  exact ⟨decoded, bytes, again, read, same, wrote, reread, same'⟩

end Messaging

end Pytitect
