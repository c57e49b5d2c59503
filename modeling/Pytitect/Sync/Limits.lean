import Pytitect.Sync.Bijection

namespace Pytitect.Sync
open Text

/-- The opaque identifiers of a document. -/
def SyncDocument.ids : SyncDocument → List Text
  | .session d => [d.sessionId]
  | .dataset d => [d.datasetId]
  | .bootstrapRequest d => d.clientId :: d.datasetIds
  | .bootstrapResponse d => d.session.sessionId :: d.datasets.map DatasetDescriptor.datasetId
  | .snapshot d => d.datasetId :: (d.nextCursor.toList ++ d.upserts.map Upsert.itemId)
  | .delta d => d.datasetId :: (d.nextCursor.toList ++ (d.upserts.map Upsert.itemId ++ d.tombstones.map Tombstone.itemId))
  | .resetRequired d => [d.datasetId]
  | .generationMismatch d => [d.datasetId]
  | .readiness _ => []
  | .mutationOutcome d => d.mutationId :: d.receiptId.toList
  | .mutationOutcomes d => d.datasetId :: d.outcomes.flatMap fun outcome => outcome.mutationId :: outcome.receiptId.toList

/-- The lists of a document keep the counts of the limits. -/
def SyncDocument.Counted (limits : SyncLimits) : SyncDocument → Prop
  | .bootstrapRequest d => d.datasetIds.length ≤ limits.maxDatasets ∧ d.capabilities.length ≤ limits.maxCapabilities
  | .bootstrapResponse d => d.datasets.length ≤ limits.maxDatasets
  | .snapshot d => d.upserts.length ≤ limits.maxItemsPerPage
  | .delta d => d.upserts.length + d.tombstones.length ≤ limits.maxItemsPerPage
  | .mutationOutcomes d => d.outcomes.length ≤ limits.maxMutations
  | _ => True

/-- Every identifier and every list of a document keeps the limits. -/
def SyncDocument.Honours (limits : SyncLimits) (d : SyncDocument) : Prop :=
  (∀ id ∈ d.ids, (utf8 id).length ≤ limits.maxOpaqueIdBytes) ∧ d.Counted limits

/-- The value under a name of an object. -/
def member (value : JsonValue) (name : String) : JsonValue :=
  match value with
  | .dict members => item members name
  | _ => .null

def textsOf : JsonValue → List Text
  | .str text => [text]
  | _ => []

def elementsOf : JsonValue → List JsonValue
  | .list items => items
  | _ => []

/-- The identifiers of a mutation outcome. -/
def outcomeIds (outcome : JsonValue) : List Text :=
  textsOf (member outcome "mutation_id") ++ textsOf (member outcome "receipt_id")

/-- The identifiers of a value that no decoder compares with the limits of the caller. -/
def uncheckedIds (value : JsonValue) : List Text :=
  let payload := member value "payload"
  let kind := textsOf (member value "kind")
  if kind = ["session".codePoints] then textsOf (member payload "session_id")
  else if kind = ["bootstrap_response".codePoints] then
    textsOf (member (member payload "session") "session_id") ++
      (elementsOf (member payload "datasets")).flatMap fun dataset => textsOf (member dataset "dataset_id")
  else if kind = ["snapshot".codePoints] ∨ kind = ["delta".codePoints] then textsOf (member payload "next_cursor")
  else if kind = ["dataset".codePoints] ∨ kind = ["reset_required".codePoints] ∨
      kind = ["generation_mismatch".codePoints] then textsOf (member payload "dataset_id")
  else if kind = ["mutation_outcome".codePoints] then outcomeIds payload
  else if kind = ["mutation_outcomes".codePoints] then (elementsOf (member payload "outcomes")).flatMap outcomeIds
  else []

@[simp] theorem member_dict (members : List (Text × JsonValue)) (name : String) :
    member (.dict members) name = item members name := rfl

@[simp] theorem textsOf_str (text : Text) : textsOf (.str text) = [text] := rfl

@[simp] theorem elementsOf_list (items : List JsonValue) : elementsOf (.list items) = items := rfl

@[simp] theorem textsOf_nullable (found : Option Text) : textsOf (nullable (found.map .str)) = found.toList := by
  cases found <;> rfl

/-- What is read from each entry is what the entries hold. -/
theorem entries_flatMap {α : Type} {decode : List (Text × JsonValue) → Except ContractError α} {raw : List JsonValue}
    {found : List α} {read : JsonValue → List Text} {hold : α → List Text} (entries : Entries decode raw found)
    (same : ∀ inner result, decode inner = .ok result → read (.dict inner) = hold result) :
    raw.flatMap read = found.flatMap hold := by
  unfold Entries at entries
  induction entries with
  | nil => rfl
  | cons first _ ih =>
    obtain ⟨inner, rfl, decoded⟩ := first
    rw [List.flatMap_cons, List.flatMap_cons, ih, same _ _ decoded]

theorem outcomeIds_eq (inner : List (Text × JsonValue)) (d : MutationOutcome) (decoded : decodeMutationOutcome inner = .ok d) :
    outcomeIds (.dict inner) = d.mutationId :: d.receiptId.toList := by
  obtain ⟨-, isId, -, -, isReceipt, -⟩ := decodeMutationOutcome_iff.mp decoded
  simp [outcomeIds, isId, isReceipt]

theorem entries_within {α : Type} {decode : List (Text × JsonValue) → Except ContractError α} {raw : List JsonValue}
    {found : List α} {P : α → Prop} (entries : Entries decode raw found)
    (each : ∀ inner result, decode inner = .ok result → P result) : ∀ result ∈ found, P result := by
  unfold Entries at entries
  induction entries with
  | nil => simp
  | cons first _ ih =>
    obtain ⟨inner, -, decoded⟩ := first
    exact List.forall_mem_cons.mpr ⟨each _ _ decoded, ih⟩

/-- The lists of a decoded document are all compared with the limits, and the identifiers
that are not are the only ones that can exceed them. -/
theorem decode_honours_limits_iff (interpreter : Interpreter) (limits : SyncLimits) (value : JsonValue) (d : SyncDocument)
    (decoded : decodeSyncDocument interpreter value limits = .ok d) :
    d.Honours limits ↔ ∀ id ∈ uncheckedIds value, (utf8 id).length ≤ limits.maxOpaqueIdBytes := by
  obtain ⟨⟨⟩, -, decoded⟩ := bind_ok decoded
  obtain ⟨outer, payload, rfl, -, -, isKind, isPayload, found⟩ := decodeBoundedDocument_iff.mp decoded
  have kind : textsOf (member (.dict outer) "kind") = [(kindOf d).codePoints] := by rw [member_dict, isKind, textsOf_str]
  have inner : member (.dict outer) "payload" = .dict payload := isPayload
  have sameKind : ∀ first second : String, first.codePoints = second.codePoints ↔ first = second := fun first second =>
    String.codePoints_injective.eq_iff
  unfold uncheckedIds SyncDocument.Honours
  rw [kind, inner]
  cases d with
  | session d =>
    obtain ⟨-, isId, -⟩ := decodeSession_iff.mp found
    simp [kindOf, isId, SyncDocument.ids, SyncDocument.Counted]
  | dataset d =>
    obtain ⟨-, isId, -⟩ := decodeDataset_iff.mp found
    simp [kindOf, isId, SyncDocument.ids, SyncDocument.Counted, sameKind]
  | bootstrapRequest d =>
    obtain ⟨-, -, -, -, datasets, capabilities, client, ids, -⟩ := decodeBootstrapRequest_iff.mp found
    simpa [kindOf, SyncDocument.ids, SyncDocument.Counted, sameKind, datasets, capabilities, client] using ids
  | bootstrapResponse d =>
    obtain ⟨-, ⟨session, isSession, sessionFound⟩, ⟨raw, isRaw, all⟩, -, few⟩ := decodeBootstrapResponse_iff.mp found
    obtain ⟨-, isId, -⟩ := decodeSession_iff.mp sessionFound
    have ids : (raw.flatMap fun dataset => textsOf (member dataset "dataset_id")) =
        d.datasets.map DatasetDescriptor.datasetId := by
      rw [List.map_eq_flatMap]
      refine entries_flatMap all fun inner result passed => ?_
      obtain ⟨-, isId, -⟩ := decodeDataset_iff.mp passed
      rw [member_dict, isId, textsOf_str]
    simp only [kindOf, sameKind, List.cons.injEq, member_dict, isSession, isId, isRaw, elementsOf_list, textsOf_str, ids]
    simp [SyncDocument.ids, SyncDocument.Counted, few]
  | snapshot d =>
    obtain ⟨-, -, -, ⟨raw, -, all⟩, isCursor, -, short, few⟩ := decodeSnapshot_iff.mp found
    have items := entries_within all fun inner result passed => (decodeUpsert_iff.mp passed).2.2.2.2
    simp only [kindOf, sameKind, List.cons.injEq, member_dict, isCursor, textsOf_nullable]
    simp only [SyncDocument.ids, SyncDocument.Counted, List.forall_mem_cons, List.forall_mem_append, List.forall_mem_map]
    simp [short, few]
    exact fun _ => items
  | delta d =>
    obtain ⟨-, -, -, ⟨raw, -, all⟩, ⟨raw', -, all'⟩, isCursor, -, short, few⟩ := decodeDelta_iff.mp found
    have items := entries_within all fun inner result passed => (decodeUpsert_iff.mp passed).2.2.2.2
    have removed := entries_within all' fun inner result passed => (decodeTombstone_iff.mp passed).2.2.2.2
    simp only [kindOf, sameKind, List.cons.injEq, member_dict, isCursor, textsOf_nullable]
    simp only [SyncDocument.ids, SyncDocument.Counted, List.forall_mem_cons, List.forall_mem_append, List.forall_mem_map]
    simp [short, few]
    exact fun _ => ⟨items, removed⟩
  | resetRequired d =>
    obtain ⟨-, isId, -⟩ := decodeReset_iff.mp found
    simp [kindOf, isId, SyncDocument.ids, SyncDocument.Counted, sameKind]
  | generationMismatch d =>
    obtain ⟨-, isId, -⟩ := decodeGenerationMismatch_iff.mp found
    simp [kindOf, isId, SyncDocument.ids, SyncDocument.Counted, sameKind]
  | readiness d => simp [kindOf, SyncDocument.ids, SyncDocument.Counted, sameKind]
  | mutationOutcome d =>
    have ids := outcomeIds_eq payload d found
    simp only [kindOf, sameKind, List.cons.injEq, ids]
    simp [SyncDocument.ids, SyncDocument.Counted]
  | mutationOutcomes d =>
    obtain ⟨-, -, -, ⟨raw, isRaw, all⟩, short, few⟩ := decodeMutationOutcomes_iff.mp found
    have ids := entries_flatMap all outcomeIds_eq
    simp only [kindOf, sameKind, List.cons.injEq, member_dict, isRaw, elementsOf_list, ids]
    simp only [SyncDocument.ids, SyncDocument.Counted, List.forall_mem_cons]
    simp [short, few]

/-- A limit of one byte for identifiers. -/
def strictLimits : SyncLimits := ⟨1048576, 128, 1000, 1000, 1, 32, by decide⟩

/-- A reset of the dataset `ab`. -/
def sampleReset : ResetRequired := ⟨"ab".codePoints, 1, "stale".codePoints, rfl⟩

def sampleResetJson : JsonValue :=
  envelope "reset_required".codePoints
    (members [("dataset_id", .str "ab".codePoints), ("generation", .int 1), ("reason", .str "stale".codePoints)])

set_option maxRecDepth 20000 in
/-- An identifier of two bytes is decoded under a limit of one. -/
theorem reset_exceeds_limits : decodeSyncDocument sampleInterpreter sampleResetJson strictLimits =
    .ok (.resetRequired sampleReset) ∧ ¬SyncDocument.Honours strictLimits (.resetRequired sampleReset) :=
  ⟨rfl, fun honours => absurd (honours.1 "ab".codePoints (List.mem_singleton.mpr rfl)) (by decide)⟩

set_option maxRecDepth 20000 in
theorem reset_within_limits : SyncDocument.Honours .default (.resetRequired sampleReset) ↔
    ∀ id ∈ uncheckedIds sampleResetJson, (utf8 id).length ≤ SyncLimits.default.maxOpaqueIdBytes :=
  decode_honours_limits_iff sampleInterpreter .default sampleResetJson (.resetRequired sampleReset) rfl

end Pytitect.Sync
