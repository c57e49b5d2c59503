import Pytitect.Sync.Projection

namespace Pytitect.Sync
open Text Wire

/-- The upserts of a document. -/
def SyncDocument.upserts : SyncDocument → List Upsert
  | .snapshot document => document.upserts
  | .delta document => document.upserts
  | _ => []

/-- No upsert value has a float in it. -/
def SyncDocument.Integral (d : SyncDocument) : Prop :=
  ∀ upsert ∈ d.upserts, upsert.value.Numbers (fun _ => True) fun _ => False

section
variable {ints : Int → Prop} {floats : UInt64 → Prop}

theorem numbers_members {entries : List (String × JsonValue)} :
    (members entries).Numbers ints floats ↔ ∀ entry ∈ entries, entry.2.Numbers ints floats := by
  rw [members, named, JsonValue.Numbers, JsonValue.numbersMembers_iff, List.forall_mem_map]

theorem numbers_nullable {entry : Option JsonValue} :
    (nullable entry).Numbers ints floats ↔ ∀ value, entry = some value → value.Numbers ints floats := by
  cases entry with
  | none => exact ⟨fun _ _ absurd => (by cases absurd), fun _ => trivial⟩
  | some value => simp [nullable]

end

section
variable {d : SyncDocument} {kind : Text} {payload : JsonValue}

theorem upsert_integral {upsert : Upsert} (integral : upsert.value.Numbers (fun _ => True) fun _ => False) :
    (upsertJson upsert).Numbers (fun _ => True) fun _ => False := by
  rw [upsertJson, numbers_members]
  simp [JsonValue.Numbers, integral]

/-- A document without floats is written without floats. -/
theorem payload_integral (integral : d.Integral)
    (encoded : encodePayload d = .ok (kind, payload)) : payload.Numbers (fun _ => True) fun _ => False := by
  cases d with
  | session document =>
    rw [encodePayload, sessionJson_eq] at encoded
    cases encoded
    simp [sessionWritten, numbers_members, JsonValue.Numbers]
  | dataset document =>
    cases encoded
    simp [datasetJson, numbers_members, JsonValue.Numbers, JsonValue.numbersAll_iff]
  | bootstrapRequest document =>
    cases encoded
    simp [numbers_members, JsonValue.Numbers, JsonValue.numbersAll_iff]
  | bootstrapResponse document =>
    rw [encodePayload, sessionJson_eq] at encoded
    cases encoded
    simp [sessionWritten, datasetJson, limitsJson, natural, numbers_members, JsonValue.Numbers, JsonValue.numbersAll_iff]
  | snapshot document =>
    cases encoded
    have all : ∀ upsert ∈ document.upserts, (upsertJson upsert).Numbers (fun _ => True) fun _ => False :=
      fun upsert member => upsert_integral (integral upsert member)
    simpa [integrityJson, numbers_members, numbers_nullable, JsonValue.Numbers, JsonValue.numbersAll_iff] using all
  | delta document =>
    rw [encodePayload, tombstones_eq] at encoded
    cases encoded
    have all : ∀ upsert ∈ document.upserts, (upsertJson upsert).Numbers (fun _ => True) fun _ => False :=
      fun upsert member => upsert_integral (integral upsert member)
    simpa [integrityJson, tombstoneWritten, numbers_members, numbers_nullable, JsonValue.Numbers, JsonValue.numbersAll_iff]
      using all
  | resetRequired document =>
    cases encoded
    simp [numbers_members, JsonValue.Numbers]
  | generationMismatch document =>
    cases encoded
    simp [numbers_members, JsonValue.Numbers]
  | readiness document =>
    rw [encodePayload, formatSyncTimestamp_iff.mpr ⟨document.whole, rfl⟩] at encoded
    cases encoded
    simp [numbers_members, numbers_nullable, JsonValue.Numbers]
  | mutationOutcome document =>
    cases encoded
    simp [mutationOutcomeJson, numbers_members, numbers_nullable, JsonValue.Numbers]
  | mutationOutcomes document =>
    cases encoded
    simp [mutationOutcomeJson, numbers_members, numbers_nullable, JsonValue.Numbers, JsonValue.numbersAll_iff]

end

theorem envelope_integral {d : SyncDocument} {kind : Text} {payload : JsonValue} (integral : d.Integral)
    (encoded : encodePayload d = .ok (kind, payload)) : (envelope kind payload).Numbers (fun _ => True) fun _ => False := by
  rw [envelope, numbers_members]
  simpa [JsonValue.Numbers] using payload_integral integral encoded

section
variable {interpreter : Interpreter}

theorem lookup_exactMembers {members : List (Text × JsonValue)} (key : Text) :
    (JsonValue.exactMembers interpreter members).lookup key = (members.lookup key).map (JsonValue.exact interpreter) := by
  induction members with
  | nil => rfl
  | cons member rest ih =>
    obtain ⟨name, value⟩ := member
    rw [JsonValue.exactMembers, List.lookup_cons, List.lookup_cons, ih]
    cases key == name with
    | true => rfl
    | false => rfl

theorem lookup_exact {members : List (Text × JsonValue)} (name : String) :
    lookup (JsonValue.exactMembers interpreter members) name = (item members name).exact interpreter := by
  unfold lookup item JsonValue.get
  rw [lookup_exactMembers]
  cases members.lookup name.codePoints with
  | none => rfl
  | some value => rfl

@[simp] theorem lookup_named (name key : String) (found : JsonValue) (rest : List (String × JsonValue)) :
    (named ((key, found) :: rest)).lookup name.codePoints =
      if key = name then some found else (named rest).lookup name.codePoints := by
  unfold named
  rw [List.map_cons, List.lookup_cons]
  by_cases same : key = name
  · rw [same, if_pos rfl, beq_self_eq_true]
  · have apart : (name.codePoints == key.codePoints) = false := by
      rw [beq_eq_false_iff_ne]
      exact String.codePoints_injective.ne (Ne.symm same)
    rw [apart, if_neg same]

theorem upsertValue_written (upsert : Upsert) :
    upsertValue ((upsertJson upsert).exact interpreter) = some (upsert.value.exact interpreter) := by
  rw [upsertJson, members, JsonValue.exact, upsertValue, lookup_exactMembers]
  simp

theorem isPageKind_named {name : String} : isPageKind (.str name.codePoints) = true ↔ name = "snapshot" ∨ name = "delta" := by
  rw [isPageKind_iff, ExactTree.str.injEq, ExactTree.str.injEq, String.codePoints_injective.eq_iff,
    String.codePoints_injective.eq_iff]

theorem payload_upserts {d : SyncDocument} {kind : Text} {payload : JsonValue} (encoded : encodePayload d = .ok (kind, payload)) :
    (isPageKind (.str kind) = false ∧ d.upserts = []) ∨ (isPageKind (.str kind) = true ∧
      ∃ inner, payload = .dict inner ∧ item inner "upserts" = .list (d.upserts.map upsertJson)) := by
  cases d with
  | snapshot document =>
    cases encoded
    exact Or.inr ⟨isPageKind_named.mpr (Or.inl rfl), _, rfl, by simp [SyncDocument.upserts]⟩
  | delta document =>
    rw [encodePayload, tombstones_eq] at encoded
    cases encoded
    exact Or.inr ⟨isPageKind_named.mpr (Or.inr rfl), _, rfl, by simp [SyncDocument.upserts]⟩
  | _ =>
    obtain ⟨rfl, -⟩ := payload_written encoded
    refine Or.inl ⟨?_, rfl⟩
    rw [Bool.eq_false_iff, Ne, isPageKind_named]
    simp [kindOf]

section
variable {d : SyncDocument} {kind : Text} {payload : JsonValue} {outer : List (Text × JsonValue)}

/-- The upserts of a page that is written out. -/
theorem upsertsOf_written (encoded : encodePayload d = .ok (kind, payload)) (isKind : item outer "kind" = .str kind)
    (isPayload : item outer "payload" = payload) :
    upsertsOf (JsonValue.exactMembers interpreter outer) = d.upserts.map fun upsert => (upsertJson upsert).exact interpreter := by
  rcases payload_upserts encoded with ⟨other, none⟩ | ⟨page, inner, rfl, isArray⟩
  · rw [none]
    refine upsertsOf_kind ?_
    rw [lookup_exact, isKind, JsonValue.exact, other]
    exact Bool.false_ne_true
  · refine @upsertsOf_page _ (JsonValue.exactMembers interpreter inner) _ ?_ ?_ ?_
    · rw [lookup_exact, isPayload, JsonValue.exact]
    · rw [lookup_exact, isKind]
      exact page
    · rw [lookup_exact, isArray, JsonValue.exact, JsonValue.exactAll_eq, List.map_map]
      rfl

/-- What holds of a document and of the parts of what it holds of, holds of the upsert values. -/
theorem upsertValues_have {P : ExactTree → Prop} (field : ∀ members, P (.object members) → ∀ name, P (lookup members name))
    (entry : ∀ values, P (.array values) → ∀ value ∈ values, P value) (encoded : encodePayload d = .ok (kind, payload))
    (isPayload : item outer "payload" = payload) (whole : P ((JsonValue.dict outer).exact interpreter)) :
    ∀ upsert ∈ d.upserts, P (upsert.value.exact interpreter) := by
  intro upsert member
  rcases payload_upserts encoded with ⟨-, none⟩ | ⟨-, inner, rfl, isArray⟩
  · rw [none] at member
    cases member
  · have inPayload := field _ whole "payload"
    rw [lookup_exact, isPayload] at inPayload
    have inUpserts := field _ inPayload "upserts"
    rw [lookup_exact, isArray, JsonValue.exact, JsonValue.exactAll_eq, List.map_map] at inUpserts
    have inUpsert := entry _ inUpserts _ (List.mem_map_of_mem member)
    have inValue := field _ inUpsert "value"
    rw [lookup_exact] at inValue
    simpa using inValue

end

/-- What `WireDocument` takes, in terms of the value. -/
theorem make_accepts {tree : ExactTree} {limits : Limits} (proper : tree.Proper) :
    (∃ document, WireDocument.make tree limits = .ok document) ↔
      Within limits tree 0 0 ∧ weight tree ≤ limits.maxBodyBytes := by
  constructor
  · rintro ⟨document, made⟩
    obtain ⟨rfl, within, bytes, encoded⟩ := (WireDocument.make_iff proper).mp made
    obtain ⟨isText, bound⟩ := WireDocument.encode_iff.mp encoded
    obtain ⟨-, rfl⟩ := Text.encode_iff.mp isText
    have light : (utf8 (rendered tree)).length ≤ limits.maxBodyBytes := bound
    rw [length_rendered] at light
    exact ⟨within, light⟩
  · rintro ⟨within, light⟩
    refine ⟨⟨tree, limits⟩, (WireDocument.make_iff proper).mpr ⟨rfl, within, utf8 (rendered tree), ?_⟩⟩
    rw [WireDocument.encode_iff, length_rendered]
    refine ⟨Text.encode_iff.mpr ⟨plain_rendered (within.strings.imp fun text admitted => admitted.2), rfl⟩, light⟩

/-- The values of upserts are checked by their length, as they are valid otherwise. -/
theorem checkValues_written {upserts : List Upsert} (proper : ∀ upsert ∈ upserts, (upsert.value.exact interpreter).Proper)
    (plain : ∀ upsert ∈ upserts, (upsert.value.exact interpreter).Strings Plain) :
    checkValues (upserts.map fun upsert => (upsertJson upsert).exact interpreter) = .ok () ↔
      ∀ upsert ∈ upserts, weight (upsert.value.exact interpreter) ≤ Limits.default.maxBodyBytes := by
  rw [checkValues_iff, List.forall_mem_map]
  refine forall₂_congr fun upsert member => ?_
  obtain ⟨items, depth, strings, finite⟩ := (JsonValue.validateJson_iff interpreter).mp upsert.proper.2
  have within : Within Limits.default (upsert.value.exact interpreter) 0 0 :=
    ⟨by omega, depth, strings.and (plain upsert member)⟩
  simp only [upsertValue_written, Option.some.injEq, forall_eq', make_accepts (proper upsert member)]
  exact and_iff_right within

end

/-- A value comes back from the bytes of what is written for it. -/
theorem decodeWireStream_written {tree : ExactTree} {limits : Limits} (proper : tree.Proper) (within : Within limits tree 0 0)
    (light : weight tree ≤ limits.maxBodyBytes) : decodeWireStream [utf8 (written tree)] limits = .ok ⟨tree, limits⟩ := by
  have items := within.items
  have depth := within.depth
  have whole : [utf8 (written tree)].flatten = utf8 (written tree) := List.flatten_singleton
  have found := written_text tree []
  rw [List.append_nil] at found
  rw [decodeWireStream_iff, whole, length_written]
  refine ⟨written tree, Text.encode_iff.mpr ⟨plain_written.mpr (within.strings.imp fun text admitted => admitted.2), rfl⟩, light,
    tree, ⟨_, [], .none, found, .none⟩, by omega, by omega, within.strings.imp fun text admitted => admitted.1, ?_⟩
  rw [ExactTree.denote_of_proper proper]

/-- The bounds of a document are those of its bytes. -/
theorem WithinBudget.within {interpreter : Interpreter} {limits : SyncLimits} {value : JsonValue}
    (budget : WithinBudget interpreter limits value) :
    Within (allocation limits none) (value.exact interpreter) 0 0 ∧
      weight (value.exact interpreter) ≤ (allocation limits none).maxBodyBytes := by
  have items := budget.items
  have depth := budget.admissible.depth
  refine ⟨⟨?_, depth, budget.admissible.strings.and budget.plain⟩, ?_⟩
  · rw [Nat.zero_add]
    exact items
  · change _ ≤ min limits.maxDocumentBytes limits.maxDocumentBytes
    rw [Nat.min_self]
    exact budget.bytes

theorem shapeNumber_numeric : Numeric fun number => number.toInt.map JsonValue.int := by
  intro number item passed
  exact ordinaryNumber_numeric number item (shapeNumber_ordinary number item passed)

theorem shapeNumber_int (n : Int) : (JsonValue.intToken n).toInt.map JsonValue.int = .ok (.int n) := by
  obtain ⟨integer, value⟩ := integerValue_signed n
  rw [toInt_iff.mpr ⟨integer, value.symm⟩]
  rfl

/-- The shape of a written document is valid exactly when its upsert values are short. -/
theorem validateShape_written {interpreter : Interpreter} {limits : SyncLimits} {d : SyncDocument} {kind : Text}
    {payload : JsonValue} (bounds : Limits) (proper : (envelope kind payload).Proper) (integral : d.Integral)
    (plain : ((envelope kind payload).exact interpreter).Strings Plain) (encoded : encodePayload d = .ok (kind, payload))
    (decoded : decodeBoundedDocument (envelope kind payload) limits = .ok d) :
    validateShape ⟨(envelope kind payload).exact interpreter, bounds⟩ limits = .ok () ↔
      ∀ upsert ∈ d.upserts, weight (upsert.value.exact interpreter) ≤ Limits.default.maxBodyBytes := by
  have properTree : ((envelope kind payload).exact interpreter).Proper := JsonValue.exact_proper proper
  have isProtocol : item (named [("protocol", .str syncProtocol), ("kind", .str kind), ("payload", payload)]) "protocol" =
      .str syncProtocol := by simp
  have isKind : item (named [("protocol", .str syncProtocol), ("kind", .str kind), ("payload", payload)]) "kind" =
      .str kind := by simp
  have isPayload : item (named [("protocol", .str syncProtocol), ("kind", .str kind), ("payload", payload)]) "payload" =
      payload := by simp
  have values : checkValues (d.upserts.map fun upsert => (upsertJson upsert).exact interpreter) = .ok () ↔
      ∀ upsert ∈ d.upserts, weight (upsert.value.exact interpreter) ≤ Limits.default.maxBodyBytes := by
    refine checkValues_written (upsertValues_have (fun _ => proper_field) ?_ encoded isPayload properTree)
      (upsertValues_have (fun _ => strings_field) ?_ encoded isPayload plain)
    · intro values inside
      rwa [ExactTree.Proper, ExactTree.properAll_iff] at inside
    · intro values inside
      rwa [ExactTree.Strings, ExactTree.stringsAll_iff] at inside
  rw [← values, ← upsertsOf_written encoded isKind isPayload, ← projected_total, validateShape_iff]
  constructor
  · rintro ⟨members, blank, projection, found, isObject, -, projects, -⟩
    cases isObject
    exact ⟨blank, projects⟩
  · rintro ⟨blank, projects⟩
    have numbers := envelope_integral integral encoded
    have read : convert (fun number => number.toInt.map JsonValue.int) ((envelope kind payload).exact interpreter) =
        .ok (envelope kind payload) := convert_exact (fun n _ => shapeNumber_int n) (fun _ absurd => absurd.elim) numbers
    obtain ⟨projection, readBlank, both⟩ := decodeBounded_projected limits shapeNumber_numeric properTree projects read
    obtain ⟨found, contract⟩ := both.mpr ⟨d, decoded⟩
    exact ⟨_, blank, projection, found, rfl, by rw [lookup_exact, isProtocol]; rfl, projects, readBlank, contract⟩

/-- What the raw boundary makes of bytes that are written for an object, when no integrity is selected. -/
theorem decodeSyncRaw_written {members : List (Text × ExactTree)} {limits : SyncLimits} (raw : SyncWireDocument) (moment : Nat)
    (proper : (ExactTree.object members).Proper) (within : Within (allocation limits none) (.object members) 0 0)
    (light : weight (.object members) ≤ (allocation limits none).maxBodyBytes) :
    decodeSyncRaw (utf8 (written (.object members))) limits none none none moment = .ok raw ↔
      raw.document = ⟨.object members, allocation limits none⟩ ∧ raw.limits = limits := by
  have acknowledged : (⟨none, none⟩ : SyncIntegritySelection).acknowledge none moment = .ok () := rfl
  rw [decodeSyncRaw, decodeSyncStream, decodeWireStream_written proper within light, ← makeRaw_ok]
  change (liftWire (SyncIntegritySelection.acknowledge ⟨none, none⟩ none moment) >>= _) = _ ↔ _
  rw [acknowledged]
  exact liftWire_ok

/-- The raw boundary accepts what is written for a document exactly when its upsert values are short. -/
theorem raw_accepts_iff {interpreter : Interpreter} {d : SyncDocument} {limits : SyncLimits} {kind : Text} {payload : JsonValue}
    (moment : Nat) (proper : (envelope kind payload).Proper) (integral : d.Integral)
    (encoded : encodePayload d = .ok (kind, payload)) (bounded : documentBounds interpreter (envelope kind payload) limits = .ok ())
    (decoded : decodeBoundedDocument (envelope kind payload) limits = .ok d) :
    (∃ raw, decodeSyncRaw (utf8 ((envelope kind payload).text interpreter false)) limits none none none moment = .ok raw ∧
        raw.toContract = .ok d) ↔
      ∀ upsert ∈ d.upserts, weight (upsert.value.exact interpreter) ≤ Limits.default.maxBodyBytes := by
  have budget := documentBounds_iff.mp bounded
  obtain ⟨within, light⟩ := budget.within
  rw [← validateShape_written (allocation limits none) proper integral budget.plain encoded decoded]
  have answer := fun raw => decodeSyncRaw_written raw moment (JsonValue.exact_proper proper) within light
  have back : ordinary true ((envelope kind payload).exact interpreter) = .ok (envelope kind payload) :=
    ordinary_exact (envelope_integral integral encoded)
  constructor
  · rintro ⟨raw, accepted, -⟩
    obtain ⟨isDocument, isLimits⟩ := (answer raw).mp accepted
    have valid := raw.valid
    rwa [isDocument, isLimits] at valid
  · intro valid
    refine ⟨⟨_, limits, valid⟩, (answer _).mpr ⟨rfl, rfl⟩, ?_⟩
    unfold SyncWireDocument.toContract WireDocument.toJson
    dsimp only
    rw [back]
    change liftContract (decodeBoundedDocument (envelope kind payload) limits) = _
    rw [decoded]
    rfl

section
variable {value : JsonValue}

/-- The default limits but for the bytes of a document, of which there are four times as many. -/
def wideLimits : SyncLimits := ⟨4194304, 128, 1000, 1000, 255, 32, by decide⟩

theorem upsertOf_valid (valid : validateJson value .default = .ok ()) :
    Upsert.postInit "i".codePoints 0 value = .ok () := by
  rw [Upsert.postInit, valid]
  rfl

/-- The integrity of a page of one item, with a digest of zeros. -/
def oneItem : Integrity := ⟨"sha-256".codePoints, List.replicate 64 0x30, 1, rfl⟩

/-- A page of one upsert. -/
def pageOf (value : JsonValue) (valid : validateJson value .default = .ok ()) : SnapshotPage :=
  ⟨"d".codePoints, 0, [⟨"i".codePoints, 0, value, upsertOf_valid valid⟩], none, oneItem, rfl⟩

/-- What is written for a page of one upsert. -/
def pagePayload (value : JsonValue) : JsonValue :=
  members [("dataset_id", .str "d".codePoints), ("generation", .int 0),
    ("upserts", .list [members [("item_id", .str "i".codePoints), ("revision", .int 0), ("value", value)]]),
    ("next_cursor", .null), ("integrity", integrityJson oneItem)]

def pageJson (value : JsonValue) : JsonValue := envelope "snapshot".codePoints (pagePayload value)

theorem pageJson_weight (value : JsonValue) : weight ((pageJson value).exact sampleInterpreter) + 4 =
    weight ((pageJson .null).exact sampleInterpreter) + weight (value.exact sampleInterpreter) := by
  have null : weight ((JsonValue.null).exact sampleInterpreter) = 4 := by decide
  simp only [pageJson, pagePayload, envelope, integrityJson, members, named, List.map_cons, List.map_nil, JsonValue.exact, JsonValue.exactMembers,
    JsonValue.exactAll, weight, weightMembers, weightAll] at null ⊢
  omega

theorem pageJson_proper (proper : value.Proper) : (pageJson value).Proper := by
  simp only [pageJson, pagePayload, envelope, integrityJson, members, named, List.map_cons, List.map_nil, JsonValue.Proper, JsonValue.ProperMembers,
    JsonValue.ProperAll, proper, and_true]
  decide

theorem pageJson_strings {test : Text → Prop} (fixed : ((pageJson .null).exact sampleInterpreter).Strings test)
    (strings : (value.exact sampleInterpreter).Strings test) : ((pageJson value).exact sampleInterpreter).Strings test := by
  simp only [pageJson, pagePayload, envelope, integrityJson, members, named, List.map_cons, List.map_nil, JsonValue.exact, JsonValue.exactMembers,
    JsonValue.exactAll, ExactTree.Strings, ExactTree.StringsMembers, ExactTree.StringsAll, strings, and_true, true_and]
    at fixed ⊢
  exact fixed

/-- A page of one upsert whose value is short is within the wide limits. -/
theorem pageJson_bounded (valid : validateJson value .default = .ok ()) (writes : value.Numbers (JsonValue.Writes sampleInterpreter) fun _ => True)
    (plain : (value.exact sampleInterpreter).Strings Plain) (few : (value.exact sampleInterpreter).items ≤ 9000)
    (deep : (value.exact sampleInterpreter).depth ≤ 20) (light : weight (value.exact sampleInterpreter) ≤ 4000000) :
    documentBounds sampleInterpreter (pageJson value) wideLimits = .ok () := by
  obtain ⟨-, -, strings, finite⟩ := (JsonValue.validateJson_iff sampleInterpreter).mp valid
  have numbers : ∀ {ints : Int → Prop} {floats : UInt64 → Prop}, ints 0 → ints 1 → value.Numbers ints floats →
      (pageJson value).Numbers ints floats := by
    intro ints floats zero one all
    simp [pageJson, pagePayload, envelope, integrityJson, oneItem, numbers_members, JsonValue.Numbers, JsonValue.NumbersAll, zero, one, all]
  rw [documentBounds_iff]
  refine ⟨?_, ⟨?_, ?_, ?_⟩, ?_, ?_, ?_⟩
  · simp only [pageJson, pagePayload, envelope, integrityJson, members, named, List.map_cons, List.map_nil, JsonValue.exact, JsonValue.exactMembers,
      JsonValue.exactAll, ExactTree.items, ExactTree.itemsMembers, ExactTree.itemsAll]
    omega
  · simp only [pageJson, pagePayload, envelope, integrityJson, members, named, List.map_cons, List.map_nil, JsonValue.exact, JsonValue.exactMembers,
      JsonValue.exactAll, ExactTree.depth, ExactTree.depthMembers, ExactTree.depthAll]
    change _ ≤ 32
    omega
  · refine pageJson_strings ?_ (strings.imp fun text (short : text.length ≤ 16384) => (by
      change text.length ≤ 4194304
      omega))
    simp only [pageJson, pagePayload, envelope, integrityJson, members, named, List.map_cons, List.map_nil, JsonValue.exact, JsonValue.exactMembers,
      JsonValue.exactAll, ExactTree.Strings, ExactTree.StringsMembers, ExactTree.StringsAll]
    decide +kernel
  · exact numbers trivial trivial finite
  · exact numbers (by decide) (by decide) writes
  · refine pageJson_strings ?_ plain
    simp only [pageJson, pagePayload, envelope, integrityJson, members, named, List.map_cons, List.map_nil, JsonValue.exact, JsonValue.exactMembers,
      JsonValue.exactAll, ExactTree.Strings, ExactTree.StringsMembers, ExactTree.StringsAll, Plain]
    decide +kernel
  · have whole := pageJson_weight value
    have rest : weight ((pageJson .null).exact sampleInterpreter) ≤ 500 := by decide +kernel
    change _ ≤ 4194304
    omega

theorem pageOf_written (valid : validateJson value .default = .ok ()) :
    encodePayload (.snapshot (pageOf value valid)) = .ok ("snapshot".codePoints, pagePayload value) := rfl

theorem pageOf_decoded (valid : validateJson value .default = .ok ()) :
    decodeBoundedDocument (pageJson value) wideLimits = .ok (.snapshot (pageOf value valid)) := by
  have short : (utf8 "i".codePoints).length ≤ wideLimits.maxOpaqueIdBytes := by decide
  have upsert : Entries (decodeUpsert wideLimits)
      [members [("item_id", .str "i".codePoints), ("revision", .int 0), ("value", value)]] (pageOf value valid).upserts := by
    refine .cons ?_ .nil
    exact decodeUpsert_written ⟨"i".codePoints, 0, value, upsertOf_valid valid⟩ short
  have page : Decodes wideLimits (named [("dataset_id", .str "d".codePoints), ("generation", .int 0),
      ("upserts", .list [members [("item_id", .str "i".codePoints), ("revision", .int 0), ("value", value)]]),
      ("next_cursor", .null), ("integrity", integrityJson oneItem)]) (.snapshot (pageOf value valid)) := by
    refine decodeSnapshot_iff.mpr ⟨fields_named rfl, by simp [pageOf], by simp [pageOf], ⟨_, by simp, upsert⟩,
      by simp [pageOf, nullable], ?_, (by decide : (utf8 "d".codePoints).length ≤ wideLimits.maxOpaqueIdBytes),
      (by decide : 1 ≤ wideLimits.maxItemsPerPage)⟩
    simpa [pageOf] using decodeIntegrity_written oneItem
  exact decodeBoundedDocument_iff.mpr ⟨_, _, rfl, fields_named rfl, by simp, by simp [kindOf], by simp [pagePayload, members], page⟩

end

/-- The boundaries agree on a document exactly when every upsert value takes no more bytes
than the default limits allow, whatever the limits of the document are. -/
theorem boundaries_agree_iff (interpreter : Interpreter) (d : SyncDocument) (limits : SyncLimits) (v : Json) (moment : Nat)
    (integral : d.Integral) (encoded : encodeSyncDocument interpreter d limits = .ok v.value)
    (decoded : decodeSyncDocument interpreter v.value limits = .ok d) :
    (∃ raw, decodeSyncRaw (utf8 (v.value.text interpreter false)) limits none none none moment = .ok raw ∧
        raw.toContract = .ok d) ↔
      ∀ upsert ∈ d.upserts, (utf8 (upsert.value.text interpreter false)).length ≤ 1048576 := by
  obtain ⟨⟨kind, payload⟩, written, encoded⟩ := bind_ok encoded
  obtain ⟨⟨⟩, bounded, encoded⟩ := bind_ok encoded
  obtain ⟨⟨⟩, -, contract⟩ := bind_ok decoded
  have same : envelope kind payload = v.value := Except.ok.inj encoded
  have proper := v.proper
  rw [← same] at proper contract ⊢
  rw [raw_accepts_iff moment proper integral written bounded contract]
  refine forall₂_congr fun upsert _ => ?_
  rw [← length_written]
  rfl

theorem five_valid : validateJson (.int 5) .default = .ok () := rfl

theorem five_bounded : documentBounds sampleInterpreter (pageJson (.int 5)) wideLimits = .ok () :=
  pageJson_bounded five_valid (by decide : JsonValue.Writes sampleInterpreter 5) trivial (by decide) (by decide) (by decide)

/-- The page of one upsert with the value 5 passes both boundaries. -/
theorem five_agrees : ∃ raw, decodeSyncRaw (utf8 ((pageJson (.int 5)).text sampleInterpreter false)) wideLimits none none none 0 =
    .ok raw ∧ raw.toContract = .ok (.snapshot (pageOf (.int 5) five_valid)) := by
  refine (boundaries_agree_iff sampleInterpreter (.snapshot (pageOf (.int 5) five_valid)) wideLimits
    ⟨pageJson (.int 5), pageJson_proper trivial⟩ 0 ?_ ?_ ?_).mpr ?_
  · intro upsert member
    rw [List.mem_singleton.mp member]
    trivial
  · exact bind_ok_iff.mpr ⟨_, pageOf_written five_valid, bind_ok_iff.mpr ⟨(), five_bounded, rfl⟩⟩
  · exact bind_ok_iff.mpr ⟨(), five_bounded, pageOf_decoded five_valid⟩
  · intro upsert member
    rw [List.mem_singleton.mp member]
    decide

/-- Strings of the letter `a`. -/
def words (count length : Nat) : JsonValue := .list (List.replicate count (.str (List.replicate length 0x61)))

section
variable {interpreter : Interpreter} {count length : Nat}

theorem words_exact : (words count length).exact interpreter =
    .array (List.replicate count (.str (List.replicate length 0x61))) := by
  rw [words, JsonValue.exact, JsonValue.exactAll_eq, List.map_replicate, JsonValue.exact]

theorem words_items : ((words count length).exact interpreter).items = 1 + count := by
  rw [words_exact, ExactTree.items, ExactTree.itemsAll_eq, List.map_replicate, List.sum_replicate_nat, ExactTree.items, Nat.mul_one]
  all_goals exact fun _ absurd => (by cases absurd)

theorem words_depth : ((words count length).exact interpreter).depth ≤ 1 := by
  rw [words_exact, ExactTree.depth, ExactTree.depthAll_le]
  intro value member
  rw [List.eq_of_mem_replicate member]
  exact le_refl 1

theorem words_strings {test : Text → Prop} (passed : test (List.replicate length 0x61)) :
    ((words count length).exact interpreter).Strings test := by
  rw [words_exact, ExactTree.Strings, ExactTree.stringsAll_iff]
  intro value member
  rw [List.eq_of_mem_replicate member]
  exact passed

theorem words_numbers {ints : Int → Prop} {floats : UInt64 → Prop} : (words count length).Numbers ints floats := by
  rw [words, JsonValue.Numbers, JsonValue.numbersAll_iff]
  intro value member
  rw [List.eq_of_mem_replicate member]
  trivial

theorem words_proper : (words count length).Proper := by
  rw [words, JsonValue.Proper, JsonValue.properAll_iff]
  intro value member
  rw [List.eq_of_mem_replicate member]
  trivial

theorem length_word : (utf8 (dumps (List.replicate length 0x61))).length = length + 2 := by
  have letters : (utf8 ((List.replicate length 0x61).flatMap escaped)).length = length := by
    induction length with
    | zero => rfl
    | succ length ih =>
      have letter : escaped 0x61 = [0x61] := by decide
      have one : (0x61 : CodePoint).utf8.length = 1 := by decide
      rw [List.replicate_succ, List.flatMap_cons, letter, List.singleton_append, length_utf8_cons, ih, one]
      omega
  have mark : JsonText.quote.utf8.length = 1 := by decide
  have last : (utf8 [JsonText.quote]).length = 1 := by decide
  rw [dumps, length_utf8_cons, length_utf8_append, letters, mark, last]
  omega

theorem words_weight : weight ((words count length).exact interpreter) = 1 + max 1 (count * (length + 3)) := by
  rw [words_exact, weight, weightAll_eq, List.map_replicate, List.sum_replicate_nat, weight, length_word]

theorem words_plain : Plain (List.replicate length 0x61) := by
  unfold Plain
  rw [List.any_eq_false]
  intro c member
  rw [List.eq_of_mem_replicate member]
  decide

end

/-- Over a mebibyte of words, within the limits of a value. -/
def longValue : JsonValue := words 66 16384

theorem longValue_valid : validateJson longValue .default = .ok () := by
  rw [JsonValue.validateJson_iff sampleInterpreter, longValue, words_items]
  have short : (List.replicate 16384 (0x61 : CodePoint)).length ≤ Limits.default.maxStringLength := by
    rw [List.length_replicate]
    decide
  have shallow : 0 + ((words 66 16384).exact sampleInterpreter).depth ≤ Limits.default.maxJsonDepth := by
    have flat := @words_depth sampleInterpreter 66 16384
    change _ ≤ 32
    omega
  exact ⟨by decide, shallow, words_strings short, words_numbers⟩

/-- Both boundaries know the limits, and only one of them takes the document. -/
theorem boundaries_disagree : ∃ (d : SyncDocument) (v : Json), d.Integral ∧
    encodeSyncDocument sampleInterpreter d wideLimits = .ok v.value ∧
    decodeSyncDocument sampleInterpreter v.value wideLimits = .ok d ∧
    ¬∃ raw, decodeSyncRaw (utf8 (v.value.text sampleInterpreter false)) wideLimits none none none 0 = .ok raw ∧
      raw.toContract = .ok d := by
  have weighs : weight (longValue.exact sampleInterpreter) = 1081543 := words_weight
  have bounded : documentBounds sampleInterpreter (pageJson longValue) wideLimits = .ok () := by
    refine pageJson_bounded longValue_valid words_numbers (words_strings words_plain) ?_ ?_ (by omega)
    · rw [longValue, words_items]
      decide
    · exact words_depth.trans (by decide)
  have proper : (pageJson longValue).Proper := pageJson_proper words_proper
  have integral : (SyncDocument.snapshot (pageOf longValue longValue_valid)).Integral := by
    intro upsert member
    rw [List.mem_singleton.mp member]
    exact words_numbers
  have decoded := pageOf_decoded longValue_valid
  refine ⟨.snapshot (pageOf longValue longValue_valid), ⟨pageJson longValue, proper⟩, integral, ?_, ?_, ?_⟩
  · exact bind_ok_iff.mpr ⟨_, pageOf_written longValue_valid, bind_ok_iff.mpr ⟨(), bounded, rfl⟩⟩
  · exact bind_ok_iff.mpr ⟨(), bounded, decoded⟩
  · intro accepted
    have light := (raw_accepts_iff 0 proper integral (pageOf_written longValue_valid) bounded decoded).mp accepted
      ⟨"i".codePoints, 0, longValue, upsertOf_valid longValue_valid⟩ (List.mem_singleton.mpr rfl)
    change weight (longValue.exact sampleInterpreter) ≤ 1048576 at light
    omega

end Pytitect.Sync
