import Pytitect.Sync.Documents

namespace Pytitect.Sync
open Text

theorem validated_iff {α : Type} {check : Except ContractError Unit} {build : check = .ok () → α} {value : α} :
    validated check build = .ok value ↔ ∃ valid, build valid = value := by
  unfold validated
  split
  · rw [Except.ok.injEq]
    exact ⟨fun same => ⟨rfl, same⟩, fun holds => holds.2⟩
  · exact ⟨fun absurd => (by cases absurd), fun holds => (by cases holds.1)⟩

theorem lift_ok {α : Type} {result : Except PyError α} {value : α} : lift result = .ok value ↔ result = .ok value := by
  cases result with
  | ok found => rw [lift, Except.ok.injEq, Except.ok.injEq]
  | error error => exact ⟨fun absurd => (by cases absurd), fun absurd => (by cases absurd)⟩

theorem each_iff {α β : Type} {step : α → Except ContractError β} {entries : List α} {results : List β} :
    each step entries = .ok results ↔ List.Forall₂ (fun entry result => step entry = .ok result) entries results := by
  induction entries generalizing results with
  | nil =>
    rw [each, Except.ok.injEq, List.forall₂_nil_left_iff]
    exact eq_comm
  | cons entry rest ih =>
    rw [each, bind_ok_iff]
    constructor
    · rintro ⟨first, found, passed⟩
      obtain ⟨others, later, passed⟩ := bind_ok passed
      cases passed
      exact .cons found (ih.mp later)
    · intro all
      cases all with
      | cons found later => exact ⟨_, found, bind_ok_iff.mpr ⟨_, ih.mpr later, rfl⟩⟩

/-- A step that undoes a writer undoes it for every entry. -/
theorem each_map_iff {α β : Type} {step : α → Except ContractError β} {write : β → α} {entries : List α} {results : List β}
    (undoes : ∀ entry result, step entry = .ok result ↔ entry = write result) :
    each step entries = .ok results ↔ entries = results.map write := by
  rw [each_iff]
  constructor
  · intro all
    induction all with
    | nil => rfl
    | cons found _ ih => rw [List.map_cons, (undoes _ _).mp found, ih]
  · rintro rfl
    induction results with
    | nil => exact .nil
    | cons result rest ih => exact .cons ((undoes _ _).mpr rfl) ih

theorem checkAll_iff {α : Type} {check : α → Except ContractError Unit} {values : List α} {done : Unit} :
    checkAll check values = .ok done ↔ ∀ value ∈ values, check value = .ok () := by
  induction values with
  | nil => simp [checkAll]
  | cons value rest ih =>
    rw [checkAll, bind_ok_iff, List.forall_mem_cons, ← ih]
    exact ⟨fun ⟨_, first, later⟩ => ⟨first, later⟩, fun ⟨first, later⟩ => ⟨(), first, later⟩⟩

/-- A check that refuses under a condition. -/
theorem guard_iff {condition : Prop} [Decidable condition] {message : String} {next : Except ContractError α} {value : α} :
    (if condition then refuse message else next) = .ok value ↔ ¬condition ∧ next = .ok value := by
  split
  · exact ⟨fun absurd => (by cases absurd), fun holds => absurd ‹_› holds.1⟩
  · exact ⟨fun passed => ⟨‹_›, passed⟩, fun holds => holds.2⟩

/-- An opaque identifier of whatever length. -/
structure Opaque (value : Text) : Prop where
  nonempty : value ≠ []
  trimmed : value.trimmed = true
  printable : value.any (fun c => c.val < 0x20) = false
  plain : value.any CodePoint.isSurrogate = false

/-- The bytes that an identifier may take. -/
def maximumOr (maximum : Option Nat) : Nat :=
  match maximum with
  | some maximum => if maximum = 0 then SyncLimits.default.maxOpaqueIdBytes else maximum
  | none => SyncLimits.default.maxOpaqueIdBytes

theorem maximumOr_some {maximum : Nat} (positive : 0 < maximum) : maximumOr (some maximum) = maximum :=
  if_neg (Nat.pos_iff_ne_zero.mp positive)

theorem opaqueId_iff {value : Text} {name : String} {maximum : Option Nat} {done : Unit} :
    opaqueId value name maximum = .ok done ↔ Opaque value ∧ (utf8 value).length ≤ maximumOr maximum := by
  unfold opaqueId
  dsimp only
  rw [guard_iff]
  constructor
  · rintro ⟨proper, passed⟩
    split at passed
    · cases passed
    · rename_i bytes encoded
      obtain ⟨plain, rfl⟩ := encode_iff.mp encoded
      rw [guard_iff] at passed
      exact ⟨⟨by tauto, by simpa using fun bad => proper (Or.inr (Or.inl bad)),
        by simpa using fun bad => proper (Or.inr (Or.inr bad)), plain⟩, Nat.not_lt.mp passed.1⟩
  · rintro ⟨⟨nonempty, trimmed, printable, plain⟩, short⟩
    have encoded := encode_iff.mpr ⟨plain, rfl⟩
    rw [encoded]
    refine ⟨?_, if_neg (Nat.not_lt.mpr short)⟩
    rw [trimmed, printable]
    simp [nonempty]

/-- An identifier keeps a limit exactly when it has few enough bytes, once it is opaque. -/
theorem opaqueId_within {value : Text} {name other : String} {maximum : Nat} (positive : 0 < maximum)
    (proper : opaqueId value other none = .ok ()) :
    opaqueId value name (some maximum) = .ok () ↔ (utf8 value).length ≤ maximum := by
  rw [opaqueId_iff, maximumOr_some positive]
  exact and_iff_right (opaqueId_iff.mp proper).1

section
variable {value : JsonValue} {name : String}

theorem object_iff {found : List (Text × JsonValue)} : object value name = .ok found ↔ value = .dict found := by
  cases value <;> simp [object, refuse]

theorem array_iff {found : List JsonValue} : array value name = .ok found ↔ value = .list found := by
  cases value <;> simp [array, refuse]

theorem string_iff {found : Text} : string value name = .ok found ↔ value = .str found := by
  cases value <;> simp [string, refuse]

theorem integer_iff {found : Int} : integer value name = .ok found ↔ value = .int found := by
  cases value <;> simp [integer, refuse]

theorem nullableString_iff {found : Option Text} :
    nullableString value name = .ok found ↔ value = nullable (found.map .str) := by
  cases value <;> cases found <;> simp [nullableString, string, refuse, nullable, bind, Except.bind, pure, Except.pure]

theorem nullableInteger_iff {found : Option Int} :
    nullableInteger value name = .ok found ↔ value = nullable (found.map .int) := by
  cases value <;> cases found <;> simp [nullableInteger, integer, refuse, nullable, bind, Except.bind, pure, Except.pure]

theorem strings_iff {maximum : Nat} {found : List Text} :
    strings value name maximum = .ok found ↔ value = .list (found.map .str) ∧ found.length ≤ maximum := by
  rw [strings, bind_ok_iff]
  constructor
  · rintro ⟨values, isArray, passed⟩
    rw [guard_iff, each_map_iff fun _ _ => string_iff] at passed
    obtain ⟨short, rfl⟩ := passed
    rw [List.length_map] at short
    exact ⟨array_iff.mp isArray, Nat.not_lt.mp short⟩
  · rintro ⟨rfl, short⟩
    refine ⟨_, rfl, ?_⟩
    rw [guard_iff, each_map_iff fun _ _ => string_iff, List.length_map]
    exact ⟨Nat.not_lt.mpr short, rfl⟩

end

theorem wireTime_iff {value : Datetime} {name : String} : wireTime value name = .ok () ↔ value.microsecond % 1000 = 0 := by
  rw [wireTime, guard_iff, not_not]
  exact and_iff_left rfl

theorem formatSyncTimestamp_iff {value : Datetime} {text : Text} :
    formatSyncTimestamp value = .ok text ↔ value.microsecond % 1000 = 0 ∧ text = value.milliseconds := by
  rw [formatSyncTimestamp, bind_ok_iff]
  constructor
  · rintro ⟨⟨⟩, whole, passed⟩
    exact ⟨wireTime_iff.mp whole, (Except.ok.inj passed).symm⟩
  · rintro ⟨whole, rfl⟩
    exact ⟨(), wireTime_iff.mpr whole, rfl⟩

/-- A timestamp is read exactly from what it is rendered to. -/
theorem parseSyncTimestamp_iff {text : Text} {value : Datetime} :
    parseSyncTimestamp text = .ok value ↔ value.microsecond % 1000 = 0 ∧ text = value.milliseconds := by
  constructor
  · intro passed
    unfold parseSyncTimestamp at passed
    split at passed
    · cases passed
    split at passed
    · cases passed
    obtain ⟨⟨⟩, whole, passed⟩ := bind_ok passed
    obtain ⟨formatted, rendered, passed⟩ := bind_ok passed
    obtain ⟨-, rfl⟩ := formatSyncTimestamp_iff.mp rendered
    rw [guard_iff, not_not, Except.ok.injEq] at passed
    obtain ⟨same, rfl⟩ := passed
    exact ⟨wireTime_iff.mp whole, same.symm⟩
  · rintro ⟨whole, rfl⟩
    have back := fromFields_milliseconds whole
    rw [timestampFields_milliseconds, Option.bind_some] at back
    unfold parseSyncTimestamp
    rw [timestampFields_milliseconds]
    dsimp only
    rw [back]
    dsimp only
    rw [wireTime_iff.mpr whole, formatSyncTimestamp_iff.mpr ⟨whole, rfl⟩]
    exact if_neg (not_not.mpr rfl)

theorem timestamp_iff {value : List (Text × JsonValue)} {name : String} {found : Datetime} :
    timestamp value name = .ok found ↔ found.microsecond % 1000 = 0 ∧ item value name = .str found.milliseconds := by
  rw [timestamp, bind_ok_iff]
  constructor
  · rintro ⟨text, isString, passed⟩
    obtain ⟨whole, rfl⟩ := parseSyncTimestamp_iff.mp passed
    exact ⟨whole, string_iff.mp isString⟩
  · rintro ⟨whole, isString⟩
    exact ⟨_, string_iff.mpr isString, parseSyncTimestamp_iff.mpr ⟨whole, rfl⟩⟩

theorem syncMode_iff {text : Text} {mode : SyncMode} : SyncMode.ofValue text = .ok mode ↔ text = mode.value := by
  have apart : "snapshot".codePoints ≠ "delta".codePoints := String.codePoints_injective.ne (by decide)
  unfold SyncMode.ofValue
  split
  · rename_i same
    rw [same, Except.ok.injEq]
    cases mode <;> simp [SyncMode.value, apart]
  split
  · rename_i same
    rw [same, Except.ok.injEq]
    cases mode <;> simp [SyncMode.value, apart.symm]
  · rename_i first second
    cases mode <;> simp [SyncMode.value, first, second]

theorem outcomeState_iff {text : Text} {state : MutationOutcomeState} :
    MutationOutcomeState.ofValue text = .ok state ↔ text = state.value := by
  unfold MutationOutcomeState.ofValue
  split
  · rename_i same
    rw [same, Except.ok.injEq]
    cases state <;> simp [MutationOutcomeState.value, String.codePoints_injective.eq_iff]
  split
  · rename_i same
    rw [same, Except.ok.injEq]
    cases state <;> simp [MutationOutcomeState.value, String.codePoints_injective.eq_iff]
  split
  · rename_i same
    rw [same, Except.ok.injEq]
    cases state <;> simp [MutationOutcomeState.value, String.codePoints_injective.eq_iff]
  split
  · rename_i same
    rw [same, Except.ok.injEq]
    cases state <;> simp [MutationOutcomeState.value, String.codePoints_injective.eq_iff]
  · rename_i first second third fourth
    cases state <;> simp [MutationOutcomeState.value, first, second, third, fourth]

@[simp] theorem item_named (name key : String) (found : JsonValue) (rest : List (String × JsonValue)) :
    item (named ((key, found) :: rest)) name = if key = name then found else item (named rest) name := by
  unfold item named JsonValue.get
  rw [List.map_cons, List.lookup_cons]
  by_cases same : key = name
  · rw [same, if_pos rfl, beq_self_eq_true]
    rfl
  · have apart : (name.codePoints == key.codePoints) = false := by
      rw [beq_eq_false_iff_ne]
      exact String.codePoints_injective.ne (Ne.symm same)
    rw [apart, if_neg same]

/-- An object that is written out has its own fields. -/
theorem fields_named {entries : List (String × JsonValue)} {expected : List String} {name : String}
    (same : entries.map Prod.fst = expected) : fields (named entries) expected name = .ok () := by
  rw [← same]
  unfold fields named
  dsimp only
  rw [List.map_map, List.map_map]
  exact if_pos ⟨List.Subset.refl _, List.Subset.refl _⟩

theorem SyncSession.whole (d : SyncSession) : d.createdAt.microsecond % 1000 = 0 ∧ d.expiresAt.microsecond % 1000 = 0 := by
  obtain ⟨⟨⟩, -, passed⟩ := bind_ok d.valid
  obtain ⟨⟨⟩, created, passed⟩ := bind_ok passed
  obtain ⟨⟨⟩, expires, -⟩ := bind_ok passed
  exact ⟨wireTime_iff.mp created, wireTime_iff.mp expires⟩

theorem Tombstone.whole (d : Tombstone) : d.deletedAt.microsecond % 1000 = 0 := by
  obtain ⟨⟨⟩, -, passed⟩ := bind_ok d.valid
  obtain ⟨⟨⟩, -, passed⟩ := bind_ok passed
  exact wireTime_iff.mp passed

theorem Readiness.whole (d : Readiness) : d.checkedAt.microsecond % 1000 = 0 := by
  obtain ⟨⟨⟩, passed, -⟩ := bind_ok d.valid
  exact wireTime_iff.mp passed

theorem Upsert.proper (d : Upsert) : opaqueId d.itemId "item_id" none = .ok () ∧ validateJson d.value .default = .ok () := by
  obtain ⟨⟨⟩, proper, passed⟩ := bind_ok d.valid
  obtain ⟨⟨⟩, -, passed⟩ := bind_ok passed
  exact ⟨proper, lift_ok.mp passed⟩

theorem Tombstone.proper (d : Tombstone) : opaqueId d.itemId "item_id" none = .ok () := (bind_ok d.valid).choose_spec.1

theorem SnapshotPage.proper (d : SnapshotPage) : opaqueId d.datasetId "dataset_id" none = .ok () :=
  (bind_ok d.valid).choose_spec.1

theorem DeltaPage.proper (d : DeltaPage) : opaqueId d.datasetId "dataset_id" none = .ok () := (bind_ok d.valid).choose_spec.1

theorem MutationOutcomes.proper (d : MutationOutcomes) : opaqueId d.datasetId "dataset_id" none = .ok () :=
  (bind_ok d.valid).choose_spec.1

section
variable {value : List (Text × JsonValue)} {limits : SyncLimits}

theorem decodeSession_iff {d : SyncSession} : decodeSession value = .ok d ↔
    fields value ["session_id", "created_at", "expires_at"] "session" = .ok () ∧
      item value "session_id" = .str d.sessionId ∧ item value "created_at" = .str d.createdAt.milliseconds ∧
      item value "expires_at" = .str d.expiresAt.milliseconds := by
  simp only [decodeSession, bind_ok_iff, string_iff, timestamp_iff, validated_iff]
  constructor
  · rintro ⟨⟨⟩, closed, id, isId, created, ⟨-, isCreated⟩, expires, ⟨-, isExpires⟩, valid, rfl⟩
    exact ⟨closed, isId, isCreated, isExpires⟩
  · rintro ⟨closed, isId, isCreated, isExpires⟩
    exact ⟨(), closed, _, isId, _, ⟨d.whole.1, isCreated⟩, _, ⟨d.whole.2, isExpires⟩, d.valid, rfl⟩

theorem mode_iff {entry : JsonValue} {mode : SyncMode} :
    (do SyncMode.ofValue (← string entry "mode") : Except ContractError SyncMode) = .ok mode ↔ entry = .str mode.value := by
  simp only [bind_ok_iff, string_iff, syncMode_iff]
  exact ⟨fun ⟨text, isString, same⟩ => same ▸ isString, fun isString => ⟨_, isString, rfl⟩⟩

theorem decodeDataset_iff {d : DatasetDescriptor} : decodeDataset value = .ok d ↔
    fields value ["dataset_id", "generation", "modes"] "dataset" = .ok () ∧
      item value "dataset_id" = .str d.datasetId ∧ item value "generation" = .int d.generation ∧
      item value "modes" = .list (d.modes.map fun mode => .str mode.value) := by
  simp only [decodeDataset, bind_ok_iff, array_iff, string_iff, integer_iff, validated_iff]
  constructor
  · rintro ⟨⟨⟩, closed, raw, isArray, modes, all, id, isId, generation, isGeneration, valid, rfl⟩
    rw [each_map_iff fun _ _ => mode_iff] at all
    exact ⟨closed, isId, isGeneration, all ▸ isArray⟩
  · rintro ⟨closed, isId, isGeneration, isArray⟩
    exact ⟨(), closed, _, isArray, d.modes, (each_map_iff fun _ _ => mode_iff).mpr rfl, _, isId, _, isGeneration,
      d.valid, rfl⟩

/-- An entry that is decoded as an object. -/
theorem entry_iff {α : Type} {decode : List (Text × JsonValue) → Except ContractError α} {entry : JsonValue} {name : String}
    {found : α} : (do decode (← object entry name)) = .ok found ↔ ∃ inner, entry = .dict inner ∧ decode inner = .ok found := by
  simp only [bind_ok_iff, object_iff]

/-- How an array of objects was decoded. -/
def Entries {α : Type} (decode : List (Text × JsonValue) → Except ContractError α) (raw : List JsonValue) (found : List α) :
    Prop := List.Forall₂ (fun entry result => ∃ inner, entry = .dict inner ∧ decode inner = .ok result) raw found

theorem entries_iff {α : Type} {decode : List (Text × JsonValue) → Except ContractError α} {name : String}
    {raw : List JsonValue} {found : List α} :
    each (fun entry => do decode (← object entry name)) raw = .ok found ↔ Entries decode raw found := by
  simp only [each_iff, entry_iff, Entries]

theorem decodeBootstrapRequest_iff {d : BootstrapRequest} : decodeBootstrapRequest value limits = .ok d ↔
    fields value ["client_id", "dataset_ids", "capabilities"] "bootstrap_request" = .ok () ∧
      item value "client_id" = .str d.clientId ∧ item value "dataset_ids" = .list (d.datasetIds.map .str) ∧
      item value "capabilities" = .list (d.capabilities.map .str) ∧ d.datasetIds.length ≤ limits.maxDatasets ∧
      d.capabilities.length ≤ limits.maxCapabilities ∧ (utf8 d.clientId).length ≤ limits.maxOpaqueIdBytes ∧
      (∀ id ∈ d.datasetIds, (utf8 id).length ≤ limits.maxOpaqueIdBytes) ∧
      ∀ name ∈ d.capabilities, (utf8 name).length ≤ min 64 limits.maxOpaqueIdBytes := by
  have positive := limits.positive
  have few : 0 < min 64 limits.maxOpaqueIdBytes := by omega
  simp only [decodeBootstrapRequest, bind_ok_iff, strings_iff, string_iff, validated_iff, idsWithLimit, guard_iff,
    capabilitiesWithLimit, checkAll_iff, opaqueId_iff, maximumOr_some positive.2.2.2.2.1, maximumOr_some few]
  constructor
  · rintro ⟨⟨⟩, closed, datasets, ⟨isDatasets, datasetCount⟩, capabilities, ⟨isCapabilities, capabilityCount⟩, ⟨⟩, ⟨-, ids⟩,
      ⟨⟩, ⟨-, names⟩, id, isId, ⟨⟩, ⟨-, short⟩, valid, rfl⟩
    exact ⟨closed, isId, isDatasets, isCapabilities, datasetCount, capabilityCount, short, fun id member => (ids id member).2,
      fun name member => (names name member).2⟩
  · rintro ⟨closed, isId, isDatasets, isCapabilities, datasetCount, capabilityCount, short, ids, names⟩
    obtain ⟨⟨⟩, proper, passed⟩ := bind_ok d.valid
    obtain ⟨⟨⟩, bounded, passed⟩ := bind_ok passed
    rw [boundedIds, guard_iff, checkAll_iff] at bounded
    rw [boundedCapabilities, capabilitiesWithLimit, guard_iff, checkAll_iff] at passed
    refine ⟨(), closed, _, ⟨isDatasets, datasetCount⟩, _, ⟨isCapabilities, capabilityCount⟩, (), ⟨?_, ?_⟩, (), ⟨?_, ?_⟩, _,
      isId, (), ⟨(opaqueId_iff.mp proper).1, short⟩, d.valid, rfl⟩
    · tauto
    · exact fun id member => ⟨(opaqueId_iff.mp (bounded.2 id member)).1, ids id member⟩
    · have distinct : d.capabilities.Nodup := by tauto
      rintro (many | twice)
      · omega
      · exact twice distinct
    · exact fun name member => ⟨(opaqueId_iff.mp (passed.2 name member)).1, names name member⟩

theorem positiveInt_iff {n : Int} {name : String} {found : { n : Nat // 0 < n }} :
    positiveInt n name = .ok found ↔ n = found.1 := by
  have positive := found.2
  unfold positiveInt
  split
  · rw [Except.ok.injEq, Subtype.ext_iff]
    dsimp only
    omega
  · refine ⟨fun absurd => (by cases absurd), fun same => ?_⟩
    omega

theorem makeLimits_iff {bytes datasets items mutations ids capabilities : Int} {d : SyncLimits} :
    SyncLimits.make bytes datasets items mutations ids capabilities = .ok d ↔
      bytes = d.maxDocumentBytes ∧ datasets = d.maxDatasets ∧ items = d.maxItemsPerPage ∧ mutations = d.maxMutations ∧
        ids = d.maxOpaqueIdBytes ∧ capabilities = d.maxCapabilities := by
  simp only [SyncLimits.make, bind_ok_iff, positiveInt_iff]
  constructor
  · rintro ⟨a, isA, b, isB, c, isC, d, isD, e, isE, f, isF, same⟩
    cases same
    exact ⟨isA, isB, isC, isD, isE, isF⟩
  · rintro ⟨isA, isB, isC, isD, isE, isF⟩
    obtain ⟨a, b, c, d, e, f, positive⟩ := d
    exact ⟨⟨a, positive.1⟩, isA, ⟨b, positive.2.1⟩, isB, ⟨c, positive.2.2.1⟩, isC, ⟨d, positive.2.2.2.1⟩, isD,
      ⟨e, positive.2.2.2.2.1⟩, isE, ⟨f, positive.2.2.2.2.2⟩, isF, rfl⟩

theorem decodeLimits_iff {d : SyncLimits} : decodeLimits value = .ok d ↔
    fields value ["max_document_bytes", "max_datasets", "max_items_per_page", "max_mutations", "max_opaque_id_bytes",
        "max_capabilities"] "limits" = .ok () ∧
      item value "max_document_bytes" = natural d.maxDocumentBytes ∧ item value "max_datasets" = natural d.maxDatasets ∧
      item value "max_items_per_page" = natural d.maxItemsPerPage ∧ item value "max_mutations" = natural d.maxMutations ∧
      item value "max_opaque_id_bytes" = natural d.maxOpaqueIdBytes ∧
      item value "max_capabilities" = natural d.maxCapabilities := by
  simp only [decodeLimits, bind_ok_iff, integer_iff, makeLimits_iff, natural]
  constructor
  · rintro ⟨⟨⟩, closed, a, isA, b, isB, c, isC, d, isD, e, isE, f, isF, rfl, rfl, rfl, rfl, rfl, rfl⟩
    exact ⟨closed, isA, isB, isC, isD, isE, isF⟩
  · rintro ⟨closed, isA, isB, isC, isD, isE, isF⟩
    exact ⟨(), closed, _, isA, _, isB, _, isC, _, isD, _, isE, _, isF, rfl, rfl, rfl, rfl, rfl, rfl⟩

theorem decodeBootstrapResponse_iff {d : BootstrapResponse} : decodeBootstrapResponse value limits = .ok d ↔
    fields value ["session", "datasets", "limits"] "bootstrap_response" = .ok () ∧
      (∃ inner, item value "session" = .dict inner ∧ decodeSession inner = .ok d.session) ∧
      (∃ raw, item value "datasets" = .list raw ∧ Entries decodeDataset raw d.datasets) ∧
      (∃ inner, item value "limits" = .dict inner ∧ decodeLimits inner = .ok d.limits) ∧
      d.datasets.length ≤ limits.maxDatasets := by
  simp only [decodeBootstrapResponse, bind_ok_iff, array_iff, guard_iff, entries_iff, object_iff, validated_iff]
  constructor
  · rintro ⟨⟨⟩, closed, raw, isArray, bounds, datasets, all, inner, isInner, session, found, other, isOther, negotiated,
      found', valid, rfl⟩
    have length := all.length_eq
    refine ⟨closed, ⟨inner, isInner, found⟩, ⟨raw, isArray, all⟩, ⟨other, isOther, found'⟩, ?_⟩
    dsimp only
    omega
  · rintro ⟨closed, ⟨inner, isInner, found⟩, ⟨raw, isArray, all⟩, ⟨other, isOther, found'⟩, few⟩
    have length := all.length_eq
    have some : d.datasets ≠ [] := fun empty => (guard_iff.mp d.valid).1 (Or.inl empty)
    refine ⟨(), closed, raw, isArray, ?_, _, all, inner, isInner, _, found, other, isOther, _, found', d.valid, rfl⟩
    rintro (empty | many)
    · rw [empty] at length
      exact some (List.length_eq_zero_iff.mp length.symm)
    · omega

theorem decodeUpsert_iff {d : Upsert} : decodeUpsert limits value = .ok d ↔
    fields value ["item_id", "revision", "value"] "upsert" = .ok () ∧ item value "item_id" = .str d.itemId ∧
      item value "revision" = .int d.revision ∧ item value "value" = d.value ∧
      (utf8 d.itemId).length ≤ limits.maxOpaqueIdBytes := by
  have positive := limits.positive
  simp only [decodeUpsert, bind_ok_iff, string_iff, integer_iff, lift_ok, validated_iff, opaqueId_iff,
    maximumOr_some positive.2.2.2.2.1]
  constructor
  · rintro ⟨⟨⟩, closed, id, isId, ⟨⟩, ⟨-, short⟩, ⟨⟩, -, revision, isRevision, valid, rfl⟩
    exact ⟨closed, isId, isRevision, rfl, short⟩
  · rintro ⟨closed, isId, isRevision, isValue, short⟩
    have proper := d.proper
    obtain ⟨id, revision, inner, valid⟩ := d
    dsimp only at isId isRevision isValue short proper
    subst isValue
    exact ⟨(), closed, _, isId, (), ⟨(opaqueId_iff.mp proper.1).1, short⟩, (), proper.2, _, isRevision, valid, rfl⟩

theorem decodeTombstone_iff {d : Tombstone} : decodeTombstone limits value = .ok d ↔
    fields value ["item_id", "revision", "deleted_at"] "tombstone" = .ok () ∧ item value "item_id" = .str d.itemId ∧
      item value "revision" = .int d.revision ∧ item value "deleted_at" = .str d.deletedAt.milliseconds ∧
      (utf8 d.itemId).length ≤ limits.maxOpaqueIdBytes := by
  have positive := limits.positive
  simp only [decodeTombstone, bind_ok_iff, string_iff, integer_iff, timestamp_iff, validated_iff, opaqueId_iff,
    maximumOr_some positive.2.2.2.2.1]
  constructor
  · rintro ⟨⟨⟩, closed, id, isId, ⟨⟩, ⟨-, short⟩, revision, isRevision, deleted, ⟨-, isDeleted⟩, valid, rfl⟩
    exact ⟨closed, isId, isRevision, isDeleted, short⟩
  · rintro ⟨closed, isId, isRevision, isDeleted, short⟩
    exact ⟨(), closed, _, isId, (), ⟨(opaqueId_iff.mp d.proper).1, short⟩, _, isRevision, _, ⟨d.whole, isDeleted⟩, d.valid, rfl⟩

theorem decodeIntegrity_iff {d : Integrity} : decodeIntegrity value = .ok d ↔
    fields value ["algorithm", "digest", "item_count"] "integrity" = .ok () ∧
      item value "algorithm" = .str d.algorithm ∧ item value "digest" = .str d.digest ∧
      item value "item_count" = .int d.itemCount := by
  simp only [decodeIntegrity, bind_ok_iff, string_iff, integer_iff, validated_iff]
  constructor
  · rintro ⟨⟨⟩, closed, algorithm, isAlgorithm, digest, isDigest, count, isCount, valid, rfl⟩
    exact ⟨closed, isAlgorithm, isDigest, isCount⟩
  · rintro ⟨closed, isAlgorithm, isDigest, isCount⟩
    exact ⟨(), closed, _, isAlgorithm, _, isDigest, _, isCount, d.valid, rfl⟩

theorem decodeSnapshot_iff {d : SnapshotPage} : decodeSnapshot value limits = .ok d ↔
    fields value ["dataset_id", "generation", "upserts", "next_cursor", "integrity"] "snapshot" = .ok () ∧
      item value "dataset_id" = .str d.datasetId ∧ item value "generation" = .int d.generation ∧
      (∃ raw, item value "upserts" = .list raw ∧ Entries (decodeUpsert limits) raw d.upserts) ∧
      item value "next_cursor" = nullable (d.nextCursor.map .str) ∧
      (∃ inner, item value "integrity" = .dict inner ∧ decodeIntegrity inner = .ok d.integrity) ∧
      (utf8 d.datasetId).length ≤ limits.maxOpaqueIdBytes ∧ d.upserts.length ≤ limits.maxItemsPerPage := by
  have positive := limits.positive
  simp only [decodeSnapshot, bind_ok_iff, string_iff, integer_iff, array_iff, guard_iff, entries_iff, nullableString_iff,
    object_iff, validated_iff, opaqueId_iff, maximumOr_some positive.2.2.2.2.1]
  constructor
  · rintro ⟨⟨⟩, closed, id, isId, ⟨⟩, ⟨-, short⟩, raw, isArray, few, generation, isGeneration, upserts, all, cursor, isCursor,
      inner, isInner, integrity, found, valid, rfl⟩
    have length := all.length_eq
    refine ⟨closed, isId, isGeneration, ⟨raw, isArray, all⟩, isCursor, ⟨inner, isInner, found⟩, short, ?_⟩
    dsimp only
    omega
  · rintro ⟨closed, isId, isGeneration, ⟨raw, isArray, all⟩, isCursor, ⟨inner, isInner, found⟩, short, few⟩
    have length := all.length_eq
    exact ⟨(), closed, _, isId, (), ⟨(opaqueId_iff.mp d.proper).1, short⟩, raw, isArray, by omega, _, isGeneration, _, all, _,
      isCursor, inner, isInner, _, found, d.valid, rfl⟩

theorem decodeDelta_iff {d : DeltaPage} : decodeDelta value limits = .ok d ↔
    fields value ["dataset_id", "generation", "upserts", "tombstones", "next_cursor", "integrity"] "delta" = .ok () ∧
      item value "dataset_id" = .str d.datasetId ∧ item value "generation" = .int d.generation ∧
      (∃ raw, item value "upserts" = .list raw ∧ Entries (decodeUpsert limits) raw d.upserts) ∧
      (∃ raw, item value "tombstones" = .list raw ∧ Entries (decodeTombstone limits) raw d.tombstones) ∧
      item value "next_cursor" = nullable (d.nextCursor.map .str) ∧
      (∃ inner, item value "integrity" = .dict inner ∧ decodeIntegrity inner = .ok d.integrity) ∧
      (utf8 d.datasetId).length ≤ limits.maxOpaqueIdBytes ∧
      d.upserts.length + d.tombstones.length ≤ limits.maxItemsPerPage := by
  have positive := limits.positive
  simp only [decodeDelta, bind_ok_iff, string_iff, integer_iff, array_iff, guard_iff, entries_iff, nullableString_iff,
    object_iff, validated_iff, opaqueId_iff, maximumOr_some positive.2.2.2.2.1]
  constructor
  · rintro ⟨⟨⟩, closed, id, isId, ⟨⟩, ⟨-, short⟩, raw, isArray, raw', isArray', few, generation, isGeneration, upserts, all,
      tombstones, all', cursor, isCursor, inner, isInner, integrity, found, valid, rfl⟩
    have length := all.length_eq
    have length' := all'.length_eq
    refine ⟨closed, isId, isGeneration, ⟨raw, isArray, all⟩, ⟨raw', isArray', all'⟩, isCursor, ⟨inner, isInner, found⟩, short,
      ?_⟩
    dsimp only
    omega
  · rintro ⟨closed, isId, isGeneration, ⟨raw, isArray, all⟩, ⟨raw', isArray', all'⟩, isCursor, ⟨inner, isInner, found⟩, short,
      few⟩
    have length := all.length_eq
    have length' := all'.length_eq
    exact ⟨(), closed, _, isId, (), ⟨(opaqueId_iff.mp d.proper).1, short⟩, raw, isArray, raw', isArray', by omega, _,
      isGeneration, _, all, _, all', _, isCursor, inner, isInner, _, found, d.valid, rfl⟩

theorem decodeReset_iff {d : ResetRequired} : decodeReset value = .ok d ↔
    fields value ["dataset_id", "generation", "reason"] "reset_required" = .ok () ∧
      item value "dataset_id" = .str d.datasetId ∧ item value "generation" = .int d.generation ∧
      item value "reason" = .str d.reason := by
  simp only [decodeReset, bind_ok_iff, string_iff, integer_iff, validated_iff]
  constructor
  · rintro ⟨⟨⟩, closed, id, isId, generation, isGeneration, reason, isReason, valid, rfl⟩
    exact ⟨closed, isId, isGeneration, isReason⟩
  · rintro ⟨closed, isId, isGeneration, isReason⟩
    exact ⟨(), closed, _, isId, _, isGeneration, _, isReason, d.valid, rfl⟩

theorem decodeGenerationMismatch_iff {d : GenerationMismatch} : decodeGenerationMismatch value = .ok d ↔
    fields value ["dataset_id", "expected", "actual"] "generation_mismatch" = .ok () ∧
      item value "dataset_id" = .str d.datasetId ∧ item value "expected" = .int d.expected ∧
      item value "actual" = .int d.actual := by
  simp only [decodeGenerationMismatch, bind_ok_iff, string_iff, integer_iff, validated_iff]
  constructor
  · rintro ⟨⟨⟩, closed, id, isId, expected, isExpected, actual, isActual, valid, rfl⟩
    exact ⟨closed, isId, isExpected, isActual⟩
  · rintro ⟨closed, isId, isExpected, isActual⟩
    exact ⟨(), closed, _, isId, _, isExpected, _, isActual, d.valid, rfl⟩

theorem decodeReadiness_iff {d : Readiness} : decodeReadiness value = .ok d ↔
    fields value ["ready", "checked_at", "reason", "retry_after_ms"] "readiness" = .ok () ∧
      item value "ready" = .bool d.ready ∧ item value "checked_at" = .str d.checkedAt.milliseconds ∧
      item value "reason" = nullable (d.reason.map .str) ∧
      item value "retry_after_ms" = nullable (d.retryAfterMs.map .int) := by
  rw [decodeReadiness, bind_ok_iff]
  constructor
  · rintro ⟨⟨⟩, closed, passed⟩
    split at passed
    · rename_i ready isReady
      simp only [bind_ok_iff, timestamp_iff, nullableString_iff, nullableInteger_iff, validated_iff] at passed
      obtain ⟨checked, ⟨-, isChecked⟩, reason, isReason, retry, isRetry, valid, rfl⟩ := passed
      exact ⟨closed, isReady, isChecked, isReason, isRetry⟩
    · cases passed
  · rintro ⟨closed, isReady, isChecked, isReason, isRetry⟩
    refine ⟨(), closed, ?_⟩
    rw [isReady]
    simp only [bind_ok_iff, timestamp_iff, nullableString_iff, nullableInteger_iff, validated_iff]
    exact ⟨_, ⟨d.whole, isChecked⟩, _, isReason, _, isRetry, d.valid, rfl⟩

theorem decodeMutationOutcome_iff {d : MutationOutcome} : decodeMutationOutcome value = .ok d ↔
    fields value ["mutation_id", "state", "revision", "receipt_id", "reason"] "mutation_outcome" = .ok () ∧
      item value "mutation_id" = .str d.mutationId ∧ item value "state" = .str d.state.value ∧
      item value "revision" = nullable (d.revision.map .int) ∧ item value "receipt_id" = nullable (d.receiptId.map .str) ∧
      item value "reason" = nullable (d.reason.map .str) := by
  simp only [decodeMutationOutcome, bind_ok_iff, string_iff, outcomeState_iff, nullableInteger_iff, nullableString_iff,
    validated_iff]
  constructor
  · rintro ⟨⟨⟩, closed, id, isId, text, isText, state, rfl, revision, isRevision, receipt, isReceipt, reason, isReason, valid,
      rfl⟩
    exact ⟨closed, isId, isText, isRevision, isReceipt, isReason⟩
  · rintro ⟨closed, isId, isState, isRevision, isReceipt, isReason⟩
    exact ⟨(), closed, _, isId, _, isState, _, rfl, _, isRevision, _, isReceipt, _, isReason, d.valid, rfl⟩

theorem decodeMutationOutcomes_iff {d : MutationOutcomes} : decodeMutationOutcomes value limits = .ok d ↔
    fields value ["dataset_id", "generation", "outcomes"] "mutation_outcomes" = .ok () ∧
      item value "dataset_id" = .str d.datasetId ∧ item value "generation" = .int d.generation ∧
      (∃ raw, item value "outcomes" = .list raw ∧ Entries decodeMutationOutcome raw d.outcomes) ∧
      (utf8 d.datasetId).length ≤ limits.maxOpaqueIdBytes ∧ d.outcomes.length ≤ limits.maxMutations := by
  have positive := limits.positive
  simp only [decodeMutationOutcomes, bind_ok_iff, string_iff, integer_iff, array_iff, guard_iff, entries_iff, validated_iff,
    opaqueId_iff, maximumOr_some positive.2.2.2.2.1]
  constructor
  · rintro ⟨⟨⟩, closed, id, isId, ⟨⟩, ⟨-, short⟩, raw, isArray, bounds, generation, isGeneration, outcomes, all, valid, rfl⟩
    have length := all.length_eq
    refine ⟨closed, isId, isGeneration, ⟨raw, isArray, all⟩, short, ?_⟩
    dsimp only
    omega
  · rintro ⟨closed, isId, isGeneration, ⟨raw, isArray, all⟩, short, few⟩
    have length := all.length_eq
    obtain ⟨⟨⟩, -, passed⟩ := bind_ok d.valid
    obtain ⟨⟨⟩, -, passed⟩ := bind_ok passed
    have some : d.outcomes ≠ [] := fun empty => (guard_iff.mp passed).1 (Or.inl empty)
    refine ⟨(), closed, _, isId, (), ⟨(opaqueId_iff.mp d.proper).1, short⟩, raw, isArray, ?_, _, isGeneration, _, all, d.valid,
      rfl⟩
    rintro (empty | many)
    · rw [empty] at length
      exact some (List.length_eq_zero_iff.mp length.symm)
    · omega

/-- The `kind` of a document. -/
def kindOf : SyncDocument → String
  | .session _ => "session"
  | .dataset _ => "dataset"
  | .bootstrapRequest _ => "bootstrap_request"
  | .bootstrapResponse _ => "bootstrap_response"
  | .snapshot _ => "snapshot"
  | .delta _ => "delta"
  | .resetRequired _ => "reset_required"
  | .generationMismatch _ => "generation_mismatch"
  | .readiness _ => "readiness"
  | .mutationOutcome _ => "mutation_outcome"
  | .mutationOutcomes _ => "mutation_outcomes"

/-- The decoder of its kind yields the document. -/
def Decodes (limits : SyncLimits) (payload : List (Text × JsonValue)) : SyncDocument → Prop
  | .session document => decodeSession payload = .ok document
  | .dataset document => decodeDataset payload = .ok document
  | .bootstrapRequest document => decodeBootstrapRequest payload limits = .ok document
  | .bootstrapResponse document => decodeBootstrapResponse payload limits = .ok document
  | .snapshot document => decodeSnapshot payload limits = .ok document
  | .delta document => decodeDelta payload limits = .ok document
  | .resetRequired document => decodeReset payload = .ok document
  | .generationMismatch document => decodeGenerationMismatch payload = .ok document
  | .readiness document => decodeReadiness payload = .ok document
  | .mutationOutcome document => decodeMutationOutcome payload = .ok document
  | .mutationOutcomes document => decodeMutationOutcomes payload limits = .ok document

/-- A branch of `_decode_bounded_document`. -/
theorem branch_iff {α : Type} {kind : Text} {name : String} {decoded : Except ContractError α} {wrap : α → SyncDocument}
    {others : Except ContractError SyncDocument} {d : SyncDocument} :
    (if kind = name.codePoints then (do return wrap (← decoded)) else others) = .ok d ↔
      (kind = name.codePoints ∧ ∃ found, decoded = .ok found ∧ wrap found = d) ∨
        (kind ≠ name.codePoints ∧ others = .ok d) := by
  split
  · rename_i same
    rw [bind_ok_iff]
    constructor
    · rintro ⟨found, passed, same'⟩
      exact Or.inl ⟨same, found, passed, Except.ok.inj same'⟩
    · rintro (⟨-, found, passed, rfl⟩ | ⟨other, -⟩)
      · exact ⟨found, passed, rfl⟩
      · exact absurd same other
  · rename_i other
    exact ⟨fun passed => Or.inr ⟨other, passed⟩, fun holds => holds.elim (fun first => absurd first.1 other) And.right⟩

theorem decodeKind_iff {kind : Text} {d : SyncDocument} :
    decodeKind kind value limits = .ok d ↔ kind = (kindOf d).codePoints ∧ Decodes limits value d := by
  unfold decodeKind
  simp only [branch_iff]
  constructor
  · rintro (⟨same, found, passed, rfl⟩ | ⟨-, ⟨same, found, passed, rfl⟩ | ⟨-, ⟨same, found, passed, rfl⟩ | ⟨-,
      ⟨same, found, passed, rfl⟩ | ⟨-, ⟨same, found, passed, rfl⟩ | ⟨-, ⟨same, found, passed, rfl⟩ | ⟨-,
      ⟨same, found, passed, rfl⟩ | ⟨-, ⟨same, found, passed, rfl⟩ | ⟨-, ⟨same, found, passed, rfl⟩ | ⟨-,
      ⟨same, found, passed, rfl⟩ | ⟨-, ⟨same, found, passed, rfl⟩ | ⟨-, absurd⟩⟩⟩⟩⟩⟩⟩⟩⟩⟩⟩)
    all_goals first
      | exact ⟨same, passed⟩
      | cases absurd
  · rintro ⟨rfl, found⟩
    cases d <;> simp [kindOf, String.codePoints_injective.eq_iff] <;> exact found

theorem decodeBoundedDocument_iff {value : JsonValue} {d : SyncDocument} : decodeBoundedDocument value limits = .ok d ↔
    ∃ envelope payload, value = .dict envelope ∧ fields envelope ["protocol", "kind", "payload"] "document" = .ok () ∧
      item envelope "protocol" = .str syncProtocol ∧ item envelope "kind" = .str (kindOf d).codePoints ∧
      item envelope "payload" = .dict payload ∧ Decodes limits payload d := by
  simp only [decodeBoundedDocument, bind_ok_iff, object_iff, string_iff, guard_iff, not_not, decodeKind_iff]
  constructor
  · rintro ⟨envelope, isObject, ⟨⟩, closed, protocol, isProtocol, rfl, kind, isKind, payload, isPayload, rfl, decoded⟩
    exact ⟨envelope, payload, isObject, closed, isProtocol, isKind, isPayload, decoded⟩
  · rintro ⟨envelope, payload, isObject, closed, isProtocol, isKind, isPayload, decoded⟩
    exact ⟨envelope, isObject, (), closed, _, isProtocol, rfl, _, isKind, payload, isPayload, rfl, decoded⟩

end

end Pytitect.Sync
