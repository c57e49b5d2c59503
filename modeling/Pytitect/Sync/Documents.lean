import Pytitect.Sync.Contracts

namespace Pytitect.Sync

def syncProtocol : Text := "titect-sync/1".codePoints

/-- The members of an object that is written out in the source. -/
def named (entries : List (String × JsonValue)) : List (Text × JsonValue) :=
  entries.map fun entry => (entry.1.codePoints, entry.2)

def members (entries : List (String × JsonValue)) : JsonValue := .dict (named entries)

def nullable : Option JsonValue → JsonValue
  | some value => value
  | none => .null

def natural (value : Nat) : JsonValue := .int value

def sessionJson (value : SyncSession) : Except ContractError JsonValue := do
  let createdAt ← formatSyncTimestamp value.createdAt
  let expiresAt ← formatSyncTimestamp value.expiresAt
  return members [("session_id", .str value.sessionId), ("created_at", .str createdAt), ("expires_at", .str expiresAt)]

def datasetJson (value : DatasetDescriptor) : JsonValue :=
  members [("dataset_id", .str value.datasetId), ("generation", .int value.generation),
    ("modes", .list (value.modes.map fun mode => .str mode.value))]

def limitsJson (value : SyncLimits) : JsonValue :=
  members [("max_document_bytes", natural value.maxDocumentBytes), ("max_datasets", natural value.maxDatasets),
    ("max_items_per_page", natural value.maxItemsPerPage), ("max_mutations", natural value.maxMutations),
    ("max_opaque_id_bytes", natural value.maxOpaqueIdBytes), ("max_capabilities", natural value.maxCapabilities)]

def upsertJson (value : Upsert) : JsonValue :=
  members [("item_id", .str value.itemId), ("revision", .int value.revision), ("value", value.value)]

def tombstoneJson (value : Tombstone) : Except ContractError JsonValue := do
  let deletedAt ← formatSyncTimestamp value.deletedAt
  return members [("item_id", .str value.itemId), ("revision", .int value.revision), ("deleted_at", .str deletedAt)]

def integrityJson (value : Integrity) : JsonValue :=
  members [("algorithm", .str value.algorithm), ("digest", .str value.digest), ("item_count", .int value.itemCount)]

def mutationOutcomeJson (value : MutationOutcome) : JsonValue :=
  members [("mutation_id", .str value.mutationId), ("state", .str value.state.value),
    ("revision", nullable (value.revision.map .int)), ("receipt_id", nullable (value.receiptId.map .str)),
    ("reason", nullable (value.reason.map .str))]

/-- `_encode_payload` -/
def encodePayload : SyncDocument → Except ContractError (Text × JsonValue)
  | .session document => do return ("session".codePoints, ← sessionJson document)
  | .dataset document => .ok ("dataset".codePoints, datasetJson document)
  | .bootstrapRequest document =>
    .ok ("bootstrap_request".codePoints, members [("client_id", .str document.clientId),
      ("dataset_ids", .list (document.datasetIds.map .str)), ("capabilities", .list (document.capabilities.map .str))])
  | .bootstrapResponse document => do
    let session ← sessionJson document.session
    return ("bootstrap_response".codePoints, members [("session", session),
      ("datasets", .list (document.datasets.map datasetJson)), ("limits", limitsJson document.limits)])
  | .snapshot document =>
    .ok ("snapshot".codePoints, members [("dataset_id", .str document.datasetId),
      ("generation", .int document.generation), ("upserts", .list (document.upserts.map upsertJson)),
      ("next_cursor", nullable (document.nextCursor.map .str)), ("integrity", integrityJson document.integrity)])
  | .delta document => do
    let tombstones ← each tombstoneJson document.tombstones
    return ("delta".codePoints, members [("dataset_id", .str document.datasetId),
      ("generation", .int document.generation), ("upserts", .list (document.upserts.map upsertJson)),
      ("tombstones", .list tombstones), ("next_cursor", nullable (document.nextCursor.map .str)),
      ("integrity", integrityJson document.integrity)])
  | .resetRequired document =>
    .ok ("reset_required".codePoints, members [("dataset_id", .str document.datasetId),
      ("generation", .int document.generation), ("reason", .str document.reason)])
  | .generationMismatch document =>
    .ok ("generation_mismatch".codePoints, members [("dataset_id", .str document.datasetId),
      ("expected", .int document.expected), ("actual", .int document.actual)])
  | .readiness document => do
    let checkedAt ← formatSyncTimestamp document.checkedAt
    return ("readiness".codePoints, members [("ready", .bool document.ready), ("checked_at", .str checkedAt),
      ("reason", nullable (document.reason.map .str)), ("retry_after_ms", nullable (document.retryAfterMs.map .int))])
  | .mutationOutcome document => .ok ("mutation_outcome".codePoints, mutationOutcomeJson document)
  | .mutationOutcomes document =>
    .ok ("mutation_outcomes".codePoints, members [("dataset_id", .str document.datasetId),
      ("generation", .int document.generation), ("outcomes", .list (document.outcomes.map mutationOutcomeJson))])

/-- The limits that `_document_bounds` gives to `validate_json`. -/
def documentLimits (limits : SyncLimits) : Limits :=
  ⟨limits.maxDocumentBytes, 32, max 10000 (limits.maxItemsPerPage * 8), 64, limits.maxDocumentBytes, by
    have positive := limits.positive
    omega⟩

/-- `_document_bounds` -/
def documentBounds (interpreter : Interpreter) (value : JsonValue) (limits : SyncLimits) : Except ContractError Unit := do
  lift (validateJson value (documentLimits limits))
  let text ← lift (value.dumps interpreter false)
  match text.encode with
  | none => .error (.python .unicodeError)
  | some bytes =>
    if limits.maxDocumentBytes < bytes.length then refuse "sync document exceeds max_document_bytes" else .ok ()

/-- The envelope of a payload. -/
def envelope (kind : Text) (payload : JsonValue) : JsonValue :=
  members [("protocol", .str syncProtocol), ("kind", .str kind), ("payload", payload)]

/-- `encode_sync_document` -/
def encodeSyncDocument (interpreter : Interpreter) (document : SyncDocument) (limits : SyncLimits) :
    Except ContractError JsonValue := do
  let (kind, payload) ← encodePayload document
  documentBounds interpreter (envelope kind payload) limits
  return envelope kind payload

/-- `_object` -/
def object (value : JsonValue) (name : String) : Except ContractError (List (Text × JsonValue)) :=
  match value with
  | .dict members => .ok members
  | _ => refuse (name ++ " must be a JSON object")

/-- `_array` -/
def array (value : JsonValue) (name : String) : Except ContractError (List JsonValue) :=
  match value with
  | .list items => .ok items
  | _ => refuse (name ++ " must be a JSON array")

/-- `sorted` of a set of names. -/
def sorted (names : List Text) : List Text := names.insertionSort fun first second => Wire.precedes first second = true

/-- `_fields`: the fields of an object are closed. -/
def fields (value : List (Text × JsonValue)) (expected : List String) (name : String) : Except ContractError Unit :=
  let actual := value.map Prod.fst
  let expected := expected.map String.codePoints
  if expected ⊆ actual ∧ actual ⊆ expected then .ok ()
  else .error (.closed name (sorted (expected.filter (· ∉ actual))) (sorted (actual.filter (· ∉ expected))))

/-- `_string` -/
def string (value : JsonValue) (name : String) : Except ContractError Text :=
  match value with
  | .str text => .ok text
  | _ => refuse (name ++ " must be a string")

/-- `_nullable_string` -/
def nullableString (value : JsonValue) (name : String) : Except ContractError (Option Text) :=
  match value with
  | .null => .ok none
  | value => do return some (← string value name)

/-- `_integer`: a boolean is no integer. -/
def integer (value : JsonValue) (name : String) : Except ContractError Int :=
  match value with
  | .int value => .ok value
  | _ => refuse (name ++ " must be an integer")

/-- `None if raw is None else _integer(raw, name)` -/
def nullableInteger (value : JsonValue) (name : String) : Except ContractError (Option Int) :=
  match value with
  | .null => .ok none
  | value => do return some (← integer value name)

/-- `_strings` -/
def strings (value : JsonValue) (name : String) (maximum : Nat) : Except ContractError (List Text) := do
  let values ← array value name
  if maximum < values.length then refuse (name ++ " exceeds its finite limit")
  else each (fun item => string item name) values

/-- The value under a name; `_fields` has found it there. -/
abbrev item (value : List (Text × JsonValue)) (name : String) : JsonValue := JsonValue.get value name

def timestamp (value : List (Text × JsonValue)) (name : String) : Except ContractError Datetime := do
  parseSyncTimestamp (← string (item value name) name)

def decodeSession (value : List (Text × JsonValue)) : Except ContractError SyncSession := do
  fields value ["session_id", "created_at", "expires_at"] "session"
  let sessionId ← string (item value "session_id") "session_id"
  let createdAt ← timestamp value "created_at"
  let expiresAt ← timestamp value "expires_at"
  validated (SyncSession.postInit sessionId createdAt expiresAt) fun valid => ⟨sessionId, createdAt, expiresAt, valid⟩

def decodeDataset (value : List (Text × JsonValue)) : Except ContractError DatasetDescriptor := do
  fields value ["dataset_id", "generation", "modes"] "dataset"
  let raw ← array (item value "modes") "modes"
  let modes ← each (fun item => do SyncMode.ofValue (← string item "mode")) raw
  let datasetId ← string (item value "dataset_id") "dataset_id"
  let generation ← integer (item value "generation") "generation"
  validated (DatasetDescriptor.postInit datasetId generation modes) fun valid => ⟨datasetId, generation, modes, valid⟩

def decodeBootstrapRequest (value : List (Text × JsonValue)) (limits : SyncLimits) :
    Except ContractError BootstrapRequest := do
  fields value ["client_id", "dataset_ids", "capabilities"] "bootstrap_request"
  let datasets ← strings (item value "dataset_ids") "dataset_ids" limits.maxDatasets
  let capabilities ← strings (item value "capabilities") "capabilities" limits.maxCapabilities
  idsWithLimit datasets "dataset_ids" limits
  capabilitiesWithLimit capabilities limits
  let clientId ← string (item value "client_id") "client_id"
  opaqueId clientId "client_id" (some limits.maxOpaqueIdBytes)
  validated (BootstrapRequest.postInit clientId datasets capabilities) fun valid => ⟨clientId, datasets, capabilities, valid⟩

/-- `_decode_limits`. The names of a `set` come in any order, which decides only which
of several refusals is raised. -/
def decodeLimits (value : List (Text × JsonValue)) : Except ContractError SyncLimits := do
  fields value ["max_document_bytes", "max_datasets", "max_items_per_page", "max_mutations", "max_opaque_id_bytes",
    "max_capabilities"] "limits"
  let bytes ← integer (item value "max_document_bytes") "max_document_bytes"
  let datasets ← integer (item value "max_datasets") "max_datasets"
  let items ← integer (item value "max_items_per_page") "max_items_per_page"
  let mutations ← integer (item value "max_mutations") "max_mutations"
  let ids ← integer (item value "max_opaque_id_bytes") "max_opaque_id_bytes"
  let capabilities ← integer (item value "max_capabilities") "max_capabilities"
  SyncLimits.make bytes datasets items mutations ids capabilities

def decodeBootstrapResponse (value : List (Text × JsonValue)) (limits : SyncLimits) :
    Except ContractError BootstrapResponse := do
  fields value ["session", "datasets", "limits"] "bootstrap_response"
  let raw ← array (item value "datasets") "datasets"
  if raw = [] ∨ limits.maxDatasets < raw.length then refuse "datasets must be non-empty and within max_datasets"
  else do
    let datasets ← each (fun item => do decodeDataset (← object item "dataset")) raw
    let session ← decodeSession (← object (item value "session") "session")
    let negotiated ← decodeLimits (← object (item value "limits") "limits")
    validated (BootstrapResponse.postInit datasets) fun valid => ⟨session, datasets, negotiated, valid⟩

def decodeUpsert (limits : SyncLimits) (value : List (Text × JsonValue)) : Except ContractError Upsert := do
  fields value ["item_id", "revision", "value"] "upsert"
  let itemId ← string (item value "item_id") "item_id"
  opaqueId itemId "item_id" (some limits.maxOpaqueIdBytes)
  lift (validateJson (item value "value") .default)
  let revision ← integer (item value "revision") "revision"
  validated (Upsert.postInit itemId revision (item value "value")) fun valid => ⟨itemId, revision, item value "value", valid⟩

def decodeTombstone (limits : SyncLimits) (value : List (Text × JsonValue)) : Except ContractError Tombstone := do
  fields value ["item_id", "revision", "deleted_at"] "tombstone"
  let itemId ← string (item value "item_id") "item_id"
  opaqueId itemId "item_id" (some limits.maxOpaqueIdBytes)
  let revision ← integer (item value "revision") "revision"
  let deletedAt ← timestamp value "deleted_at"
  validated (Tombstone.postInit itemId revision deletedAt) fun valid => ⟨itemId, revision, deletedAt, valid⟩

def decodeIntegrity (value : List (Text × JsonValue)) : Except ContractError Integrity := do
  fields value ["algorithm", "digest", "item_count"] "integrity"
  let algorithm ← string (item value "algorithm") "algorithm"
  let digest ← string (item value "digest") "digest"
  let itemCount ← integer (item value "item_count") "item_count"
  validated (Integrity.postInit algorithm digest itemCount) fun valid => ⟨algorithm, digest, itemCount, valid⟩

def decodeSnapshot (value : List (Text × JsonValue)) (limits : SyncLimits) : Except ContractError SnapshotPage := do
  fields value ["dataset_id", "generation", "upserts", "next_cursor", "integrity"] "snapshot"
  let datasetId ← string (item value "dataset_id") "dataset_id"
  opaqueId datasetId "dataset_id" (some limits.maxOpaqueIdBytes)
  let raw ← array (item value "upserts") "upserts"
  if limits.maxItemsPerPage < raw.length then refuse "upserts exceed max_items_per_page"
  else do
    let generation ← integer (item value "generation") "generation"
    let upserts ← each (fun item => do decodeUpsert limits (← object item "upsert")) raw
    let nextCursor ← nullableString (item value "next_cursor") "next_cursor"
    let integrity ← decodeIntegrity (← object (item value "integrity") "integrity")
    validated (SnapshotPage.postInit datasetId generation upserts nextCursor integrity) fun valid =>
      ⟨datasetId, generation, upserts, nextCursor, integrity, valid⟩

def decodeDelta (value : List (Text × JsonValue)) (limits : SyncLimits) : Except ContractError DeltaPage := do
  fields value ["dataset_id", "generation", "upserts", "tombstones", "next_cursor", "integrity"] "delta"
  let datasetId ← string (item value "dataset_id") "dataset_id"
  opaqueId datasetId "dataset_id" (some limits.maxOpaqueIdBytes)
  let raw ← array (item value "upserts") "upserts"
  let rawTombstones ← array (item value "tombstones") "tombstones"
  if limits.maxItemsPerPage < raw.length + rawTombstones.length then refuse "delta items exceed max_items_per_page"
  else do
    let generation ← integer (item value "generation") "generation"
    let upserts ← each (fun item => do decodeUpsert limits (← object item "upsert")) raw
    let tombstones ← each (fun item => do decodeTombstone limits (← object item "tombstone")) rawTombstones
    let nextCursor ← nullableString (item value "next_cursor") "next_cursor"
    let integrity ← decodeIntegrity (← object (item value "integrity") "integrity")
    validated (DeltaPage.postInit datasetId generation upserts tombstones nextCursor integrity) fun valid =>
      ⟨datasetId, generation, upserts, tombstones, nextCursor, integrity, valid⟩

def decodeReset (value : List (Text × JsonValue)) : Except ContractError ResetRequired := do
  fields value ["dataset_id", "generation", "reason"] "reset_required"
  let datasetId ← string (item value "dataset_id") "dataset_id"
  let generation ← integer (item value "generation") "generation"
  let reason ← string (item value "reason") "reason"
  validated (ResetRequired.postInit datasetId generation reason) fun valid => ⟨datasetId, generation, reason, valid⟩

def decodeGenerationMismatch (value : List (Text × JsonValue)) : Except ContractError GenerationMismatch := do
  fields value ["dataset_id", "expected", "actual"] "generation_mismatch"
  let datasetId ← string (item value "dataset_id") "dataset_id"
  let expected ← integer (item value "expected") "expected"
  let actual ← integer (item value "actual") "actual"
  validated (GenerationMismatch.postInit datasetId expected actual) fun valid => ⟨datasetId, expected, actual, valid⟩

def decodeReadiness (value : List (Text × JsonValue)) : Except ContractError Readiness := do
  fields value ["ready", "checked_at", "reason", "retry_after_ms"] "readiness"
  match item value "ready" with
  | .bool ready => do
    let checkedAt ← timestamp value "checked_at"
    let reason ← nullableString (item value "reason") "reason"
    let retryAfterMs ← nullableInteger (item value "retry_after_ms") "retry_after_ms"
    validated (Readiness.postInit ready checkedAt reason retryAfterMs) fun valid =>
      ⟨ready, checkedAt, reason, retryAfterMs, valid⟩
  | _ => refuse "ready must be a boolean"

def decodeMutationOutcome (value : List (Text × JsonValue)) : Except ContractError MutationOutcome := do
  fields value ["mutation_id", "state", "revision", "receipt_id", "reason"] "mutation_outcome"
  let mutationId ← string (item value "mutation_id") "mutation_id"
  let state ← MutationOutcomeState.ofValue (← string (item value "state") "state")
  let revision ← nullableInteger (item value "revision") "revision"
  let receiptId ← nullableString (item value "receipt_id") "receipt_id"
  let reason ← nullableString (item value "reason") "reason"
  validated (MutationOutcome.postInit mutationId state revision receiptId reason) fun valid =>
    ⟨mutationId, state, revision, receiptId, reason, valid⟩

def decodeMutationOutcomes (value : List (Text × JsonValue)) (limits : SyncLimits) :
    Except ContractError MutationOutcomes := do
  fields value ["dataset_id", "generation", "outcomes"] "mutation_outcomes"
  let datasetId ← string (item value "dataset_id") "dataset_id"
  opaqueId datasetId "dataset_id" (some limits.maxOpaqueIdBytes)
  let raw ← array (item value "outcomes") "outcomes"
  if raw = [] ∨ limits.maxMutations < raw.length then refuse "outcomes must be non-empty and within max_mutations"
  else do
    let generation ← integer (item value "generation") "generation"
    let outcomes ← each (fun item => do decodeMutationOutcome (← object item "mutation_outcome")) raw
    validated (MutationOutcomes.postInit datasetId generation outcomes) fun valid => ⟨datasetId, generation, outcomes, valid⟩

/-- The branches of `_decode_bounded_document`. -/
def decodeKind (kind : Text) (payload : List (Text × JsonValue)) (selected : SyncLimits) :
    Except ContractError SyncDocument := do
  if kind = "session".codePoints then return .session (← decodeSession payload)
  else if kind = "dataset".codePoints then return .dataset (← decodeDataset payload)
  else if kind = "bootstrap_request".codePoints then return .bootstrapRequest (← decodeBootstrapRequest payload selected)
  else if kind = "bootstrap_response".codePoints then
    return .bootstrapResponse (← decodeBootstrapResponse payload selected)
  else if kind = "snapshot".codePoints then return .snapshot (← decodeSnapshot payload selected)
  else if kind = "delta".codePoints then return .delta (← decodeDelta payload selected)
  else if kind = "reset_required".codePoints then return .resetRequired (← decodeReset payload)
  else if kind = "generation_mismatch".codePoints then return .generationMismatch (← decodeGenerationMismatch payload)
  else if kind = "readiness".codePoints then return .readiness (← decodeReadiness payload)
  else if kind = "mutation_outcome".codePoints then return .mutationOutcome (← decodeMutationOutcome payload)
  else if kind = "mutation_outcomes".codePoints then return .mutationOutcomes (← decodeMutationOutcomes payload selected)
  else .error (.unsupported kind)

/-- `_decode_bounded_document`: the shape, after a caller has enforced the budgets. -/
def decodeBoundedDocument (value : JsonValue) (selected : SyncLimits) : Except ContractError SyncDocument := do
  let envelope ← object value "document"
  fields envelope ["protocol", "kind", "payload"] "document"
  let protocol ← string (item envelope "protocol") "protocol"
  if protocol ≠ syncProtocol then refuse "protocol must be titect-sync/1"
  else do
    let kind ← string (item envelope "kind") "kind"
    let payload ← object (item envelope "payload") "payload"
    decodeKind kind payload selected

/-- `decode_sync_document` -/
def decodeSyncDocument (interpreter : Interpreter) (value : JsonValue) (limits : SyncLimits) :
    Except ContractError SyncDocument := do
  documentBounds interpreter value limits
  decodeBoundedDocument value limits

end Pytitect.Sync
