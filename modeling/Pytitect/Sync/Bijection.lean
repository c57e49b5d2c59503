import Pytitect.Sync.Shapes

namespace Pytitect.Sync
open Text Wire

/-- What `_document_bounds` requires of a value. -/
structure WithinBudget (interpreter : Interpreter) (limits : SyncLimits) (value : JsonValue) : Prop where
  items : (value.exact interpreter).items ≤ max 10000 (limits.maxItemsPerPage * 8)
  admissible : value.Admissible interpreter (documentLimits limits) 0
  writes : value.Numbers (JsonValue.Writes interpreter) fun _ => True
  plain : (value.exact interpreter).Strings Plain
  bytes : weight (value.exact interpreter) ≤ limits.maxDocumentBytes

section
variable {interpreter : Interpreter} {limits : SyncLimits} {value other : JsonValue}

theorem documentBounds_iff {done : Unit} :
    documentBounds interpreter value limits = .ok done ↔ WithinBudget interpreter limits value := by
  have written : (value.text interpreter false) = Wire.written (value.exact interpreter) := rfl
  rw [documentBounds, bind_ok_iff]
  constructor
  · rintro ⟨⟨⟩, valid, passed⟩
    obtain ⟨text, dumped, passed⟩ := bind_ok passed
    obtain ⟨items, admissible⟩ := (JsonValue.validateJson_iff interpreter).mp (lift_ok.mp valid)
    obtain ⟨writes, rfl⟩ := JsonValue.dumps_iff.mp (lift_ok.mp dumped)
    split at passed
    · cases passed
    · rename_i bytes encoded
      obtain ⟨plain, rfl⟩ := encode_iff.mp encoded
      rw [guard_iff, written, length_written] at passed
      exact ⟨items, admissible, writes, plain_written.mp plain, Nat.not_lt.mp passed.1⟩
  · rintro ⟨items, admissible, writes, plain, bytes⟩
    have encoded := encode_iff.mpr ⟨plain_written.mpr plain, rfl⟩
    rw [← length_written] at bytes
    refine ⟨(), lift_ok.mpr ((JsonValue.validateJson_iff interpreter).mpr ⟨items, admissible⟩), ?_⟩
    rw [JsonValue.dumps_iff.mpr ⟨writes, rfl⟩]
    dsimp only [lift, bind, Except.bind]
    rw [written, encoded]
    exact if_neg (Nat.not_lt.mpr bytes)

/-- The order of members does not count for the bounds. -/
theorem WithinBudget.same (same : value.Same other) (within : WithinBudget interpreter limits value) :
    WithinBudget interpreter limits other :=
  ⟨same.items_eq ▸ within.items, same.admissible within.admissible, same.numbers.mp within.writes,
    same.strings.mp within.plain, same.weight ▸ within.bytes⟩

end

/-- Two ways to write an object out agree when they agree at every name. -/
theorem same_members {first second : List (String × JsonValue)}
    (agree : List.Forall₂ (fun entry other => entry.1 = other.1 ∧ entry.2.Same other.2) first second) :
    (members first).Same (members second) := by
  have entries : (named first).map (fun member => (member.1, member.2.canonical)) =
      (named second).map fun member => (member.1, member.2.canonical) := by
    unfold named
    induction agree with
    | nil => rfl
    | cons found _ ih =>
      rw [List.map_cons, List.map_cons, List.map_cons, List.map_cons, ih, found.1, found.2]
  unfold JsonValue.Same members
  rw [JsonValue.canonical, JsonValue.canonical, JsonValue.canonicalMembers_eq, JsonValue.canonicalMembers_eq, entries]

theorem same_list {first second : List JsonValue} (agree : List.Forall₂ JsonValue.Same first second) :
    (JsonValue.list first).Same (.list second) := by
  unfold JsonValue.Same
  rw [JsonValue.canonical, JsonValue.canonical, JsonValue.canonicalAll_eq, JsonValue.canonicalAll_eq]
  induction agree with
  | nil => rfl
  | cons found _ ih =>
    rw [JsonValue.list.injEq] at ih ⊢
    rw [List.map_cons, List.map_cons, found, ih]

theorem item_of_mem {value : List (Text × JsonValue)} (distinct : (value.map Prod.fst).Nodup) {name : String}
    {found : JsonValue} (there : (name.codePoints, found) ∈ value) : item value name = found := by
  unfold item JsonValue.get
  induction value with
  | nil => cases there
  | cons member rest ih =>
    obtain ⟨key, entry⟩ := member
    rw [List.map_cons, List.nodup_cons] at distinct
    rw [List.lookup_cons]
    rcases List.mem_cons.mp there with same | later
    · cases same
      rw [beq_self_eq_true]
      rfl
    · have apart : (name.codePoints == key) = false := by
        rw [beq_eq_false_iff_ne]
        rintro rfl
        exact distinct.1 (List.mem_map.mpr ⟨_, later, rfl⟩)
      rw [apart]
      exact ih distinct.2 later

/-- An object with closed fields is the one with these members. -/
theorem same_of_fields {value : List (Text × JsonValue)} {expected : List String} {name : String}
    (distinct : (value.map Prod.fst).Nodup) (apart : expected.Nodup) (closed : fields value expected name = .ok ()) :
    (JsonValue.dict value).Same (members (expected.map fun name => (name, item value name))) := by
  have both : expected.map String.codePoints ⊆ value.map Prod.fst ∧ value.map Prod.fst ⊆ expected.map String.codePoints := by
    unfold fields at closed
    dsimp only at closed
    split at closed
    · assumption
    · cases closed
  have keys : ((named (expected.map fun name => (name, item value name))).map Prod.fst).Nodup := by
    unfold named
    rw [List.map_map, List.map_map]
    exact apart.map String.codePoints_injective
  refine JsonValue.same_of_perm distinct ((List.perm_ext_iff_of_nodup (List.Nodup.of_map _ distinct)
    (List.Nodup.of_map _ keys)).mpr fun member => ?_)
  unfold named
  rw [List.map_map, List.mem_map]
  constructor
  · intro there
    obtain ⟨name, known, same⟩ := List.mem_map.mp (both.2 (List.mem_map_of_mem there))
    refine ⟨name, known, Prod.ext same ?_⟩
    obtain ⟨key, found⟩ := member
    dsimp only at same
    rw [← same] at there
    exact item_of_mem distinct there
  · rintro ⟨name, known, rfl⟩
    obtain ⟨⟨key, found⟩, there, same⟩ := List.mem_map.mp (both.1 (List.mem_map_of_mem known))
    dsimp only at same
    rw [same] at there
    have value := item_of_mem distinct there
    simpa [value] using there

theorem proper_item {value : List (Text × JsonValue)} (proper : (JsonValue.dict value).Proper) (name : String) :
    (item value name).Proper := by
  rw [JsonValue.Proper, JsonValue.properMembers_iff] at proper
  unfold item JsonValue.get
  cases found : value.lookup name.codePoints with
  | none => trivial
  | some entry =>
    obtain ⟨before, after, split, -⟩ := List.lookup_eq_some_iff.mp found
    exact proper.2 (name.codePoints, entry) (by rw [split]; simp)

/-- The object that `_session_json` writes. -/
def sessionWritten (d : SyncSession) : List (String × JsonValue) :=
  [("session_id", .str d.sessionId), ("created_at", .str d.createdAt.milliseconds),
    ("expires_at", .str d.expiresAt.milliseconds)]

theorem sessionJson_eq (d : SyncSession) : sessionJson d = .ok (members (sessionWritten d)) := by
  rw [sessionJson, formatSyncTimestamp_iff.mpr ⟨d.whole.1, rfl⟩, formatSyncTimestamp_iff.mpr ⟨d.whole.2, rfl⟩]
  rfl

/-- The object that `_tombstone_json` writes. -/
def tombstoneWritten (d : Tombstone) : List (String × JsonValue) :=
  [("item_id", .str d.itemId), ("revision", .int d.revision), ("deleted_at", .str d.deletedAt.milliseconds)]

theorem tombstoneJson_eq (d : Tombstone) : tombstoneJson d = .ok (members (tombstoneWritten d)) := by
  rw [tombstoneJson, formatSyncTimestamp_iff.mpr ⟨d.whole, rfl⟩]
  rfl

theorem tombstones_eq (tombstones : List Tombstone) :
    each tombstoneJson tombstones = .ok (tombstones.map fun d => members (tombstoneWritten d)) := by
  induction tombstones with
  | nil => rfl
  | cons d rest ih =>
    rw [each, tombstoneJson_eq, ih]
    rfl

section
variable {α : Type} {limits : SyncLimits} {decode : List (Text × JsonValue) → Except ContractError α}

/-- Entries that are written one by one are read one by one. -/
theorem entries_written {write : α → JsonValue} {found : List α}
    (back : ∀ result ∈ found, ∃ inner, write result = .dict inner ∧ decode inner = .ok result) :
    Entries decode (found.map write) found := by
  unfold Entries
  rw [List.forall₂_map_left_iff, List.forall₂_same]
  exact back

/-- Entries that were read are equal to the ones that are written for them. -/
theorem entries_same {write : α → JsonValue} {raw : List JsonValue} {found : List α} (entries : Entries decode raw found)
    (proper : (JsonValue.list raw).Proper)
    (back : ∀ inner result, (JsonValue.dict inner).Proper → decode inner = .ok result →
      (JsonValue.dict inner).Same (write result)) :
    (JsonValue.list raw).Same (.list (found.map write)) := by
  rw [JsonValue.Proper, JsonValue.properAll_iff] at proper
  refine same_list ?_
  rw [List.forall₂_map_right_iff]
  unfold Entries at entries
  induction entries with
  | nil => exact .nil
  | cons read _ ih =>
    rw [List.forall_mem_cons] at proper
    obtain ⟨inner, rfl, decoded⟩ := read
    exact .cons (back _ _ proper.1 decoded) (ih proper.2)

end

section
variable {limits : SyncLimits}

theorem decodeSession_written (d : SyncSession) : decodeSession (named (sessionWritten d)) = .ok d :=
  decodeSession_iff.mpr ⟨fields_named rfl, by simp [sessionWritten], by simp [sessionWritten], by simp [sessionWritten]⟩

theorem decodeDataset_written (d : DatasetDescriptor) :
    ∃ inner, datasetJson d = .dict inner ∧ decodeDataset inner = .ok d :=
  ⟨_, rfl, decodeDataset_iff.mpr ⟨fields_named rfl, by simp, by simp, by simp⟩⟩

theorem decodeLimits_written (d : SyncLimits) : ∃ inner, limitsJson d = .dict inner ∧ decodeLimits inner = .ok d :=
  ⟨_, rfl, decodeLimits_iff.mpr ⟨fields_named rfl, by simp, by simp, by simp, by simp, by simp, by simp⟩⟩

theorem decodeUpsert_written (d : Upsert) (short : (utf8 d.itemId).length ≤ limits.maxOpaqueIdBytes) :
    ∃ inner, upsertJson d = .dict inner ∧ decodeUpsert limits inner = .ok d :=
  ⟨_, rfl, decodeUpsert_iff.mpr ⟨fields_named rfl, by simp, by simp, by simp, short⟩⟩

theorem decodeTombstone_written (d : Tombstone) (short : (utf8 d.itemId).length ≤ limits.maxOpaqueIdBytes) :
    decodeTombstone limits (named (tombstoneWritten d)) = .ok d :=
  decodeTombstone_iff.mpr
    ⟨fields_named rfl, by simp [tombstoneWritten], by simp [tombstoneWritten], by simp [tombstoneWritten], short⟩

theorem decodeIntegrity_written (d : Integrity) : ∃ inner, integrityJson d = .dict inner ∧ decodeIntegrity inner = .ok d :=
  ⟨_, rfl, decodeIntegrity_iff.mpr ⟨fields_named rfl, by simp, by simp, by simp⟩⟩

theorem decodeMutationOutcome_written (d : MutationOutcome) :
    ∃ inner, mutationOutcomeJson d = .dict inner ∧ decodeMutationOutcome inner = .ok d :=
  ⟨_, rfl, decodeMutationOutcome_iff.mpr ⟨fields_named rfl, by simp, by simp, by simp, by simp, by simp⟩⟩

end

section
variable {value : List (Text × JsonValue)} {limits : SyncLimits}

theorem session_same {d : SyncSession} (proper : (JsonValue.dict value).Proper) (found : decodeSession value = .ok d) :
    (JsonValue.dict value).Same (members (sessionWritten d)) := by
  obtain ⟨closed, isId, isCreated, isExpires⟩ := decodeSession_iff.mp found
  have same := same_of_fields proper.1 (by decide) closed
  simp only [List.map_cons, List.map_nil, isId, isCreated, isExpires] at same
  exact same

theorem dataset_same (inner : List (Text × JsonValue)) (d : DatasetDescriptor) (proper : (JsonValue.dict inner).Proper)
    (found : decodeDataset inner = .ok d) : (JsonValue.dict inner).Same (datasetJson d) := by
  obtain ⟨closed, isId, isGeneration, isModes⟩ := decodeDataset_iff.mp found
  have same := same_of_fields proper.1 (by decide) closed
  simp only [List.map_cons, List.map_nil, isId, isGeneration, isModes] at same
  exact same

theorem limits_same {d : SyncLimits} (proper : (JsonValue.dict value).Proper) (found : decodeLimits value = .ok d) :
    (JsonValue.dict value).Same (limitsJson d) := by
  obtain ⟨closed, isA, isB, isC, isD, isE, isF⟩ := decodeLimits_iff.mp found
  have same := same_of_fields proper.1 (by decide) closed
  simp only [List.map_cons, List.map_nil, isA, isB, isC, isD, isE, isF] at same
  exact same

theorem upsert_same (inner : List (Text × JsonValue)) (d : Upsert) (proper : (JsonValue.dict inner).Proper)
    (found : decodeUpsert limits inner = .ok d) : (JsonValue.dict inner).Same (upsertJson d) := by
  obtain ⟨closed, isId, isRevision, isValue, -⟩ := decodeUpsert_iff.mp found
  have same := same_of_fields proper.1 (by decide) closed
  simp only [List.map_cons, List.map_nil, isId, isRevision, isValue] at same
  exact same

theorem tombstone_same (inner : List (Text × JsonValue)) (d : Tombstone) (proper : (JsonValue.dict inner).Proper)
    (found : decodeTombstone limits inner = .ok d) : (JsonValue.dict inner).Same (members (tombstoneWritten d)) := by
  obtain ⟨closed, isId, isRevision, isDeleted, -⟩ := decodeTombstone_iff.mp found
  have same := same_of_fields proper.1 (by decide) closed
  simp only [List.map_cons, List.map_nil, isId, isRevision, isDeleted] at same
  exact same

theorem integrity_same {d : Integrity} (proper : (JsonValue.dict value).Proper) (found : decodeIntegrity value = .ok d) :
    (JsonValue.dict value).Same (integrityJson d) := by
  obtain ⟨closed, isAlgorithm, isDigest, isCount⟩ := decodeIntegrity_iff.mp found
  have same := same_of_fields proper.1 (by decide) closed
  simp only [List.map_cons, List.map_nil, isAlgorithm, isDigest, isCount] at same
  exact same

theorem mutationOutcome_same (inner : List (Text × JsonValue)) (d : MutationOutcome)
    (proper : (JsonValue.dict inner).Proper) (found : decodeMutationOutcome inner = .ok d) :
    (JsonValue.dict inner).Same (mutationOutcomeJson d) := by
  obtain ⟨closed, isId, isState, isRevision, isReceipt, isReason⟩ := decodeMutationOutcome_iff.mp found
  have same := same_of_fields proper.1 (by decide) closed
  simp only [List.map_cons, List.map_nil, isId, isState, isRevision, isReceipt, isReason] at same
  exact same

theorem bootstrapRequest_same {d : BootstrapRequest} (proper : (JsonValue.dict value).Proper)
    (found : decodeBootstrapRequest value limits = .ok d) : (JsonValue.dict value).Same (members [("client_id", .str d.clientId),
      ("dataset_ids", .list (d.datasetIds.map .str)), ("capabilities", .list (d.capabilities.map .str))]) := by
  obtain ⟨closed, isId, isDatasets, isCapabilities, -⟩ := decodeBootstrapRequest_iff.mp found
  have same := same_of_fields proper.1 (by decide) closed
  simp only [List.map_cons, List.map_nil, isId, isDatasets, isCapabilities] at same
  exact same

theorem bootstrapResponse_same {d : BootstrapResponse} (proper : (JsonValue.dict value).Proper)
    (found : decodeBootstrapResponse value limits = .ok d) : (JsonValue.dict value).Same (members
      [("session", members (sessionWritten d.session)), ("datasets", .list (d.datasets.map datasetJson)),
        ("limits", limitsJson d.limits)]) := by
  obtain ⟨closed, ⟨inner, isInner, session⟩, ⟨raw, isArray, all⟩, ⟨other, isOther, negotiated⟩, -⟩ :=
    decodeBootstrapResponse_iff.mp found
  have same := same_of_fields proper.1 (by decide) closed
  simp only [List.map_cons, List.map_nil, isInner, isArray, isOther] at same
  have inners := isInner ▸ proper_item proper "session"
  have raws := isArray ▸ proper_item proper "datasets"
  have others := isOther ▸ proper_item proper "limits"
  exact same.trans (same_members (.cons ⟨rfl, session_same inners session⟩
    (.cons ⟨rfl, entries_same all raws dataset_same⟩ (.cons ⟨rfl, limits_same others negotiated⟩ .nil))))

theorem snapshot_same {d : SnapshotPage} (proper : (JsonValue.dict value).Proper)
    (found : decodeSnapshot value limits = .ok d) : (JsonValue.dict value).Same (members [("dataset_id", .str d.datasetId),
      ("generation", .int d.generation), ("upserts", .list (d.upserts.map upsertJson)),
      ("next_cursor", nullable (d.nextCursor.map .str)), ("integrity", integrityJson d.integrity)]) := by
  obtain ⟨closed, isId, isGeneration, ⟨raw, isArray, all⟩, isCursor, ⟨inner, isInner, integrity⟩, -⟩ :=
    decodeSnapshot_iff.mp found
  have same := same_of_fields proper.1 (by decide) closed
  simp only [List.map_cons, List.map_nil, isId, isGeneration, isArray, isCursor, isInner] at same
  have raws := isArray ▸ proper_item proper "upserts"
  have inners := isInner ▸ proper_item proper "integrity"
  exact same.trans (same_members (.cons ⟨rfl, .refl _⟩ (.cons ⟨rfl, .refl _⟩
    (.cons ⟨rfl, entries_same all raws upsert_same⟩ (.cons ⟨rfl, .refl _⟩
      (.cons ⟨rfl, integrity_same inners integrity⟩ .nil))))))

theorem delta_same {d : DeltaPage} (proper : (JsonValue.dict value).Proper) (found : decodeDelta value limits = .ok d) :
    (JsonValue.dict value).Same (members [("dataset_id", .str d.datasetId), ("generation", .int d.generation),
      ("upserts", .list (d.upserts.map upsertJson)),
      ("tombstones", .list (d.tombstones.map fun d => members (tombstoneWritten d))),
      ("next_cursor", nullable (d.nextCursor.map .str)), ("integrity", integrityJson d.integrity)]) := by
  obtain ⟨closed, isId, isGeneration, ⟨raw, isArray, all⟩, ⟨raw', isArray', all'⟩, isCursor, ⟨inner, isInner, integrity⟩, -⟩ :=
    decodeDelta_iff.mp found
  have same := same_of_fields proper.1 (by decide) closed
  simp only [List.map_cons, List.map_nil, isId, isGeneration, isArray, isArray', isCursor, isInner] at same
  have raws := isArray ▸ proper_item proper "upserts"
  have raws' := isArray' ▸ proper_item proper "tombstones"
  have inners := isInner ▸ proper_item proper "integrity"
  exact same.trans (same_members (.cons ⟨rfl, .refl _⟩ (.cons ⟨rfl, .refl _⟩
    (.cons ⟨rfl, entries_same all raws upsert_same⟩ (.cons ⟨rfl, entries_same all' raws' tombstone_same⟩
      (.cons ⟨rfl, .refl _⟩ (.cons ⟨rfl, integrity_same inners integrity⟩ .nil)))))))

theorem mutationOutcomes_same {d : MutationOutcomes} (proper : (JsonValue.dict value).Proper)
    (found : decodeMutationOutcomes value limits = .ok d) : (JsonValue.dict value).Same (members
      [("dataset_id", .str d.datasetId), ("generation", .int d.generation),
        ("outcomes", .list (d.outcomes.map mutationOutcomeJson))]) := by
  obtain ⟨closed, isId, isGeneration, ⟨raw, isArray, all⟩, -⟩ := decodeMutationOutcomes_iff.mp found
  have same := same_of_fields proper.1 (by decide) closed
  simp only [List.map_cons, List.map_nil, isId, isGeneration, isArray] at same
  have raws := isArray ▸ proper_item proper "outcomes"
  exact same.trans (same_members (.cons ⟨rfl, .refl _⟩ (.cons ⟨rfl, .refl _⟩
    (.cons ⟨rfl, entries_same all raws mutationOutcome_same⟩ .nil))))

/-- What is decoded is encoded as what it was decoded from. -/
theorem payload_same {d : SyncDocument} (proper : (JsonValue.dict value).Proper) (decoded : Decodes limits value d) :
    ∃ json, encodePayload d = .ok ((kindOf d).codePoints, json) ∧ (JsonValue.dict value).Same json := by
  cases d with
  | session d =>
    refine ⟨_, ?_, session_same proper decoded⟩
    rw [encodePayload, sessionJson_eq]
    rfl
  | dataset d => exact ⟨_, rfl, dataset_same _ _ proper decoded⟩
  | bootstrapRequest d => exact ⟨_, rfl, bootstrapRequest_same proper decoded⟩
  | bootstrapResponse d =>
    refine ⟨_, ?_, bootstrapResponse_same proper decoded⟩
    rw [encodePayload, sessionJson_eq]
    rfl
  | snapshot d => exact ⟨_, rfl, snapshot_same proper decoded⟩
  | delta d =>
    refine ⟨_, ?_, delta_same proper decoded⟩
    rw [encodePayload, tombstones_eq]
    rfl
  | resetRequired d =>
    obtain ⟨closed, isId, isGeneration, isReason⟩ := decodeReset_iff.mp decoded
    have same := same_of_fields proper.1 (by decide) closed
    simp only [List.map_cons, List.map_nil, isId, isGeneration, isReason] at same
    exact ⟨_, rfl, same⟩
  | generationMismatch d =>
    obtain ⟨closed, isId, isExpected, isActual⟩ := decodeGenerationMismatch_iff.mp decoded
    have same := same_of_fields proper.1 (by decide) closed
    simp only [List.map_cons, List.map_nil, isId, isExpected, isActual] at same
    exact ⟨_, rfl, same⟩
  | readiness d =>
    obtain ⟨closed, isReady, isChecked, isReason, isRetry⟩ := decodeReadiness_iff.mp decoded
    have same := same_of_fields proper.1 (by decide) closed
    simp only [List.map_cons, List.map_nil, isReady, isChecked, isReason, isRetry] at same
    refine ⟨_, ?_, same⟩
    rw [encodePayload, formatSyncTimestamp_iff.mpr ⟨d.whole, rfl⟩]
    rfl
  | mutationOutcome d => exact ⟨_, rfl, mutationOutcome_same _ _ proper decoded⟩
  | mutationOutcomes d => exact ⟨_, rfl, mutationOutcomes_same proper decoded⟩

end

theorem short_of_id {value : Text} {name : String} (proper : opaqueId value name none = .ok ()) :
    (utf8 value).length ≤ SyncLimits.default.maxOpaqueIdBytes :=
  (opaqueId_iff.mp proper).2

/-- The default limits hold of every document by its own checks. -/
theorem payload_written {d : SyncDocument} {kind : Text} {payload : JsonValue}
    (encoded : encodePayload d = .ok (kind, payload)) :
    kind = (kindOf d).codePoints ∧ ∃ inner, payload = .dict inner ∧ Decodes .default inner d := by
  cases d with
  | session d =>
    rw [encodePayload, sessionJson_eq] at encoded
    cases encoded
    exact ⟨rfl, _, rfl, decodeSession_written d⟩
  | dataset d =>
    cases encoded
    exact ⟨rfl, decodeDataset_written d⟩
  | bootstrapRequest d =>
    cases encoded
    obtain ⟨⟨⟩, proper, passed⟩ := bind_ok d.valid
    obtain ⟨⟨⟩, bounded, passed⟩ := bind_ok passed
    rw [boundedIds, guard_iff, checkAll_iff] at bounded
    rw [boundedCapabilities, capabilitiesWithLimit, guard_iff, checkAll_iff] at passed
    refine ⟨rfl, _, rfl, decodeBootstrapRequest_iff.mpr ⟨fields_named rfl, by simp, by simp, by simp, ?_, ?_,
      short_of_id proper, fun id member => short_of_id (bounded.2 id member),
      fun name member => (opaqueId_iff.mp (passed.2 name member)).2⟩⟩
    · have few := bounded.1
      omega
    · have few := passed.1
      omega
  | bootstrapResponse d =>
    rw [encodePayload, sessionJson_eq] at encoded
    cases encoded
    have few := (guard_iff.mp d.valid).1
    refine ⟨rfl, _, rfl, decodeBootstrapResponse_iff.mpr ⟨fields_named rfl,
      ⟨_, by simp [members], decodeSession_written d.session⟩,
      ⟨_, by simp, entries_written fun d _ => decodeDataset_written d⟩, ?_, by omega⟩⟩
    simpa using decodeLimits_written d.limits
  | snapshot d =>
    cases encoded
    obtain ⟨⟨⟩, -, passed⟩ := bind_ok d.valid
    obtain ⟨⟨⟩, -, passed⟩ := bind_ok passed
    obtain ⟨⟨⟩, few, -⟩ := bind_ok passed
    refine ⟨rfl, _, rfl, decodeSnapshot_iff.mpr ⟨fields_named rfl, by simp, by simp,
      ⟨_, by simp, entries_written fun d _ => decodeUpsert_written d (short_of_id d.proper.1)⟩, by simp, ?_,
      short_of_id d.proper, ?_⟩⟩
    · simpa using decodeIntegrity_written d.integrity
    · exact Nat.not_lt.mp (guard_iff.mp few).1
  | delta d =>
    rw [encodePayload, tombstones_eq] at encoded
    cases encoded
    obtain ⟨⟨⟩, -, passed⟩ := bind_ok d.valid
    obtain ⟨⟨⟩, -, passed⟩ := bind_ok passed
    obtain ⟨⟨⟩, few, -⟩ := bind_ok passed
    refine ⟨rfl, _, rfl, decodeDelta_iff.mpr ⟨fields_named rfl, by simp, by simp,
      ⟨_, by simp, entries_written fun d _ => decodeUpsert_written d (short_of_id d.proper.1)⟩,
      ⟨_, by simp [members], entries_written fun d _ => ⟨_, rfl, decodeTombstone_written d (short_of_id d.proper)⟩⟩, by simp, ?_,
      short_of_id d.proper, ?_⟩⟩
    · simpa using decodeIntegrity_written d.integrity
    · exact Nat.not_lt.mp (guard_iff.mp few).1
  | resetRequired d =>
    cases encoded
    exact ⟨rfl, _, rfl, decodeReset_iff.mpr ⟨fields_named rfl, by simp, by simp, by simp⟩⟩
  | generationMismatch d =>
    cases encoded
    exact ⟨rfl, _, rfl, decodeGenerationMismatch_iff.mpr ⟨fields_named rfl, by simp, by simp, by simp⟩⟩
  | readiness d =>
    rw [encodePayload, formatSyncTimestamp_iff.mpr ⟨d.whole, rfl⟩] at encoded
    cases encoded
    exact ⟨rfl, _, rfl, decodeReadiness_iff.mpr ⟨fields_named rfl, by simp, by simp, by simp, by simp⟩⟩
  | mutationOutcome d =>
    cases encoded
    exact ⟨rfl, decodeMutationOutcome_written d⟩
  | mutationOutcomes d =>
    cases encoded
    obtain ⟨⟨⟩, -, passed⟩ := bind_ok d.valid
    obtain ⟨⟨⟩, -, passed⟩ := bind_ok passed
    have few := (guard_iff.mp passed).1
    exact ⟨rfl, _, rfl, decodeMutationOutcomes_iff.mpr ⟨fields_named rfl, by simp, by simp,
      ⟨_, by simp, entries_written fun d _ => decodeMutationOutcome_written d⟩, short_of_id d.proper, by omega⟩⟩

theorem decode_encoded {interpreter : Interpreter} {d : SyncDocument} {v : JsonValue}
    (encoded : encodeSyncDocument interpreter d .default = .ok v) : decodeSyncDocument interpreter v .default = .ok d := by
  obtain ⟨⟨kind, payload⟩, written, encoded⟩ := bind_ok encoded
  obtain ⟨⟨⟩, bounded, encoded⟩ := bind_ok encoded
  cases encoded
  obtain ⟨rfl, inner, rfl, decoded⟩ := payload_written written
  refine bind_ok_iff.mpr ⟨(), bounded, decodeBoundedDocument_iff.mpr ?_⟩
  exact ⟨_, inner, rfl, fields_named rfl, by simp, by simp, by simp, decoded⟩

/-- With the default limits, every document that is encoded is decoded to itself, and every
value that is decoded is encoded again as a value that is equal to it as JSON. -/
theorem sync_documents_are_their_json (interpreter : Interpreter) :
    (∀ (d : SyncDocument) (v : JsonValue), encodeSyncDocument interpreter d .default = .ok v →
      decodeSyncDocument interpreter v .default = .ok d) ∧
    ∀ (v : Json) (d : SyncDocument), decodeSyncDocument interpreter v.value .default = .ok d →
      ∃ w, encodeSyncDocument interpreter d .default = .ok w ∧ w.Same v.value := by
  constructor
  · exact fun d v encoded => decode_encoded encoded
  · rintro ⟨v, proper⟩ d decoded
    obtain ⟨⟨⟩, bounded, decoded⟩ := bind_ok decoded
    obtain ⟨outer, payload, isObject, closed, isProtocol, isKind, isPayload, found⟩ := decodeBoundedDocument_iff.mp decoded
    dsimp only at isObject bounded ⊢
    subst isObject
    have inner := isPayload ▸ proper_item proper "payload"
    obtain ⟨json, written, agree⟩ := payload_same inner found
    have same := same_of_fields proper.1 (by decide) closed
    simp only [List.map_cons, List.map_nil, isProtocol, isKind, isPayload] at same
    have whole : (JsonValue.dict outer).Same (envelope (kindOf d).codePoints json) :=
      same.trans (same_members (.cons ⟨rfl, .refl _⟩ (.cons ⟨rfl, .refl _⟩ (.cons ⟨rfl, agree⟩ .nil))))
    refine ⟨envelope (kindOf d).codePoints json, ?_, whole.symm⟩
    refine bind_ok_iff.mpr ⟨_, written, bind_ok_iff.mpr ⟨(), documentBounds_iff.mpr ?_, rfl⟩⟩
    exact (documentBounds_iff.mp bounded).same whole

/-- CPython with its own limit of digits. No float is written with it here. -/
def sampleInterpreter : Interpreter := ⟨fun _ => ⟨"0.0".codePoints, rfl⟩, 4300⟩

/-- One mutation was applied. -/
def sampleOutcomes : MutationOutcomes :=
  ⟨"tasks".codePoints, 1, [⟨"m".codePoints, .applied, some 3, none, none, rfl⟩], rfl⟩

set_option maxRecDepth 20000 in
theorem sample_outcomes_are_their_json :
    ∃ v, encodeSyncDocument sampleInterpreter (.mutationOutcomes sampleOutcomes) .default = .ok v ∧
      decodeSyncDocument sampleInterpreter v .default = .ok (.mutationOutcomes sampleOutcomes) :=
  ⟨_, rfl, (sync_documents_are_their_json sampleInterpreter).1 _ _ rfl⟩

end Pytitect.Sync
