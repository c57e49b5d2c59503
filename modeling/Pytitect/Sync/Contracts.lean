import Pytitect.Security.Encoding
import Pytitect.Time
import Pytitect.Wire.Ordinary

namespace Pytitect.Sync

/-- The errors of the contracts: those of Python, and the ones whose text names what was read. -/
inductive ContractError
  | python (error : PyError)
  | closed (name : String) (missing unknown : List Text)
  | unsupported (kind : Text)
  | notMember (value : Text) (enumeration : String)

def refuse {α : Type} (message : String) : Except ContractError α := .error (.python (.valueError message))

def lift {α : Type} : Except PyError α → Except ContractError α
  | .ok value => .ok value
  | .error error => .error (.python error)

/-- Build a value when its check has passed. -/
def validated {α : Type} (check : Except ContractError Unit) (build : check = .ok () → α) : Except ContractError α :=
  match check, build with
  | .ok (), build => .ok (build rfl)
  | .error error, _ => .error error

/-- Apply a step to each entry, one after the other. -/
def each {α β : Type} (step : α → Except ContractError β) : List α → Except ContractError (List β)
  | [] => .ok []
  | entry :: rest => do
    let first ← step entry
    let others ← each step rest
    return first :: others

/-- `SyncLimits`: finite decoding and negotiated page limits. -/
structure SyncLimits where
  maxDocumentBytes : Nat
  maxDatasets : Nat
  maxItemsPerPage : Nat
  maxMutations : Nat
  maxOpaqueIdBytes : Nat
  maxCapabilities : Nat
  positive : 0 < maxDocumentBytes ∧ 0 < maxDatasets ∧ 0 < maxItemsPerPage ∧ 0 < maxMutations ∧ 0 < maxOpaqueIdBytes ∧
    0 < maxCapabilities
  deriving DecidableEq

def SyncLimits.default : SyncLimits := ⟨1048576, 128, 1000, 1000, 255, 32, by decide⟩

/-- One round of the loop of `SyncLimits.__post_init__`. -/
def positiveInt (value : Int) (name : String) : Except ContractError { n : Nat // 0 < n } :=
  if positive : 0 < value then .ok ⟨value.toNat, by omega⟩
  else refuse (name ++ " must be a positive finite integer")

/-- `SyncLimits(...)` -/
def SyncLimits.make (maxDocumentBytes maxDatasets maxItemsPerPage maxMutations maxOpaqueIdBytes maxCapabilities : Int) :
    Except ContractError SyncLimits := do
  let bytes ← positiveInt maxDocumentBytes "max_document_bytes"
  let datasets ← positiveInt maxDatasets "max_datasets"
  let items ← positiveInt maxItemsPerPage "max_items_per_page"
  let mutations ← positiveInt maxMutations "max_mutations"
  let ids ← positiveInt maxOpaqueIdBytes "max_opaque_id_bytes"
  let capabilities ← positiveInt maxCapabilities "max_capabilities"
  return ⟨bytes.1, datasets.1, items.1, mutations.1, ids.1, capabilities.1,
    bytes.2, datasets.2, items.2, mutations.2, ids.2, capabilities.2⟩

def nonNegativeInt (value : Int) (name : String) : Except ContractError Unit :=
  if value < 0 then refuse (name ++ " must be a non-negative integer") else .ok ()

def wireTime (value : Datetime) (name : String) : Except ContractError Unit :=
  if value.microsecond % 1000 ≠ 0 then refuse (name ++ " must have millisecond precision") else .ok ()

/-- `_opaque_id`; without a maximum the default one. -/
def opaqueId (value : Text) (name : String) (maximum : Option Nat) : Except ContractError Unit :=
  let selected := match maximum with
    | some maximum => if maximum = 0 then SyncLimits.default.maxOpaqueIdBytes else maximum
    | none => SyncLimits.default.maxOpaqueIdBytes
  if value = [] ∨ value.trimmed = false ∨ value.any (fun c => c.val < 0x20) = true then
    refuse (name ++ " must be a non-empty trimmed opaque identifier")
  else
    match value.encode with
    | none => .error (.python .unicodeError)
    | some bytes => if selected < bytes.length then refuse (name ++ " exceeds max_opaque_id_bytes") else .ok ()

def optionalId (value : Option Text) (name : String) : Except ContractError Unit :=
  match value with
  | some value => opaqueId value name none
  | none => .ok ()

/-- A loop that checks every value. -/
def checkAll {α : Type} (check : α → Except ContractError Unit) : List α → Except ContractError Unit
  | [] => .ok ()
  | value :: rest => do
    check value
    checkAll check rest

def boundedIds (values : List Text) (name : String) (maximum : Nat) : Except ContractError Unit :=
  if values = [] ∨ maximum < values.length ∨ ¬values.Nodup then refuse (name ++ " must be non-empty, unique, and finite")
  else checkAll (fun value => opaqueId value name none) values

def idsWithLimit (values : List Text) (name : String) (limits : SyncLimits) : Except ContractError Unit :=
  if values = [] ∨ ¬values.Nodup then refuse (name ++ " must be non-empty and unique")
  else checkAll (fun value => opaqueId value name (some limits.maxOpaqueIdBytes)) values

def capabilitiesWithLimit (values : List Text) (limits : SyncLimits) : Except ContractError Unit :=
  if limits.maxCapabilities < values.length ∨ ¬values.Nodup then refuse "capabilities must be unique and finite"
  else checkAll (fun value => opaqueId value "capability" (some (min 64 limits.maxOpaqueIdBytes))) values

def boundedCapabilities (values : List Text) : Except ContractError Unit := capabilitiesWithLimit values .default

def boundedItems (count : Nat) : Except ContractError Unit :=
  if SyncLimits.default.maxItemsPerPage < count then refuse "page exceeds max_items_per_page" else .ok ()

/-- `_reason` -/
def checkReason (value : Text) : Except ContractError Unit :=
  if value = [] ∨ value.trimmed = false then refuse "reason must be non-empty, trimmed, and at most 1024 bytes"
  else
    match value.encode with
    | none => .error (.python .unicodeError)
    | some bytes =>
      if 1024 < bytes.length then refuse "reason must be non-empty, trimmed, and at most 1024 bytes" else .ok ()

inductive SyncMode
  | snapshot
  | delta
  deriving DecidableEq, Repr

def SyncMode.value : SyncMode → Text
  | snapshot => "snapshot".codePoints
  | delta => "delta".codePoints

/-- `SyncMode(value)` -/
def SyncMode.ofValue (value : Text) : Except ContractError SyncMode :=
  if value = "snapshot".codePoints then .ok .snapshot
  else if value = "delta".codePoints then .ok .delta
  else .error (.notMember value "SyncMode")

inductive MutationOutcomeState
  | applied
  | rejected
  | conflict
  | uncertain
  deriving DecidableEq, Repr

def MutationOutcomeState.value : MutationOutcomeState → Text
  | applied => "applied".codePoints
  | rejected => "rejected".codePoints
  | conflict => "conflict".codePoints
  | uncertain => "uncertain".codePoints

/-- `MutationOutcomeState(value)` -/
def MutationOutcomeState.ofValue (value : Text) : Except ContractError MutationOutcomeState :=
  if value = "applied".codePoints then .ok .applied
  else if value = "rejected".codePoints then .ok .rejected
  else if value = "conflict".codePoints then .ok .conflict
  else if value = "uncertain".codePoints then .ok .uncertain
  else .error (.notMember value "MutationOutcomeState")

def SyncSession.postInit (sessionId : Text) (createdAt expiresAt : Datetime) : Except ContractError Unit := do
  opaqueId sessionId "session_id" none
  wireTime createdAt "created_at"
  wireTime expiresAt "expires_at"
  if ¬createdAt.before expiresAt then refuse "expires_at must be later than created_at" else .ok ()

structure SyncSession where
  sessionId : Text
  createdAt : Datetime
  expiresAt : Datetime
  valid : SyncSession.postInit sessionId createdAt expiresAt = .ok ()

def DatasetDescriptor.postInit (datasetId : Text) (generation : Int) (modes : List SyncMode) :
    Except ContractError Unit := do
  opaqueId datasetId "dataset_id" none
  nonNegativeInt generation "generation"
  if modes = [] ∨ 2 < modes.length ∨ ¬modes.Nodup then refuse "modes must contain unique supported sync modes" else .ok ()

structure DatasetDescriptor where
  datasetId : Text
  generation : Int
  modes : List SyncMode
  valid : DatasetDescriptor.postInit datasetId generation modes = .ok ()

def BootstrapRequest.postInit (clientId : Text) (datasetIds capabilities : List Text) : Except ContractError Unit := do
  opaqueId clientId "client_id" none
  boundedIds datasetIds "dataset_ids" SyncLimits.default.maxDatasets
  boundedCapabilities capabilities

structure BootstrapRequest where
  clientId : Text
  datasetIds : List Text
  capabilities : List Text
  valid : BootstrapRequest.postInit clientId datasetIds capabilities = .ok ()

def BootstrapResponse.postInit (datasets : List DatasetDescriptor) : Except ContractError Unit :=
  if datasets = [] ∨ SyncLimits.default.maxDatasets < datasets.length then refuse "datasets must be non-empty and finite"
  else if ¬(datasets.map DatasetDescriptor.datasetId).Nodup then refuse "dataset identifiers must be unique"
  else .ok ()

structure BootstrapResponse where
  session : SyncSession
  datasets : List DatasetDescriptor
  limits : SyncLimits
  valid : BootstrapResponse.postInit datasets = .ok ()

def Upsert.postInit (itemId : Text) (revision : Int) (value : JsonValue) : Except ContractError Unit := do
  opaqueId itemId "item_id" none
  nonNegativeInt revision "revision"
  lift (validateJson value .default)

structure Upsert where
  itemId : Text
  revision : Int
  value : JsonValue
  valid : Upsert.postInit itemId revision value = .ok ()

def Tombstone.postInit (itemId : Text) (revision : Int) (deletedAt : Datetime) : Except ContractError Unit := do
  opaqueId itemId "item_id" none
  nonNegativeInt revision "revision"
  wireTime deletedAt "deleted_at"

structure Tombstone where
  itemId : Text
  revision : Int
  deletedAt : Datetime
  valid : Tombstone.postInit itemId revision deletedAt = .ok ()

/-- `[0-9a-f]{64}` -/
def isDigest (text : Text) : Bool :=
  text.length = 64 && text.all fun c => JsonText.isDigit c || (0x61 ≤ c.val && c.val ≤ 0x66)

def Integrity.postInit (algorithm digest : Text) (itemCount : Int) : Except ContractError Unit := do
  if algorithm ≠ "sha-256".codePoints then refuse "algorithm must be sha-256" else .ok ()
  if ¬isDigest digest then refuse "digest must be a lowercase SHA-256 hexadecimal value" else .ok ()
  nonNegativeInt itemCount "item_count"

structure Integrity where
  algorithm : Text
  digest : Text
  itemCount : Int
  valid : Integrity.postInit algorithm digest itemCount = .ok ()

def SnapshotPage.postInit (datasetId : Text) (generation : Int) (upserts : List Upsert) (nextCursor : Option Text)
    (integrity : Integrity) : Except ContractError Unit := do
  opaqueId datasetId "dataset_id" none
  nonNegativeInt generation "generation"
  boundedItems upserts.length
  optionalId nextCursor "next_cursor"
  if integrity.itemCount ≠ upserts.length then refuse "integrity item_count must match the page" else .ok ()

structure SnapshotPage where
  datasetId : Text
  generation : Int
  upserts : List Upsert
  nextCursor : Option Text
  integrity : Integrity
  valid : SnapshotPage.postInit datasetId generation upserts nextCursor integrity = .ok ()

def DeltaPage.postInit (datasetId : Text) (generation : Int) (upserts : List Upsert) (tombstones : List Tombstone)
    (nextCursor : Option Text) (integrity : Integrity) : Except ContractError Unit := do
  opaqueId datasetId "dataset_id" none
  nonNegativeInt generation "generation"
  boundedItems (upserts.length + tombstones.length)
  optionalId nextCursor "next_cursor"
  if integrity.itemCount ≠ upserts.length + tombstones.length then refuse "integrity item_count must match the page"
  else .ok ()

structure DeltaPage where
  datasetId : Text
  generation : Int
  upserts : List Upsert
  tombstones : List Tombstone
  nextCursor : Option Text
  integrity : Integrity
  valid : DeltaPage.postInit datasetId generation upserts tombstones nextCursor integrity = .ok ()

def ResetRequired.postInit (datasetId : Text) (generation : Int) (reason : Text) : Except ContractError Unit := do
  opaqueId datasetId "dataset_id" none
  nonNegativeInt generation "generation"
  checkReason reason

structure ResetRequired where
  datasetId : Text
  generation : Int
  reason : Text
  valid : ResetRequired.postInit datasetId generation reason = .ok ()

def GenerationMismatch.postInit (datasetId : Text) (expected actual : Int) : Except ContractError Unit := do
  opaqueId datasetId "dataset_id" none
  nonNegativeInt expected "expected"
  nonNegativeInt actual "actual"

structure GenerationMismatch where
  datasetId : Text
  expected : Int
  actual : Int
  valid : GenerationMismatch.postInit datasetId expected actual = .ok ()

def Readiness.postInit (ready : Bool) (checkedAt : Datetime) (reason : Option Text) (retryAfterMs : Option Int) :
    Except ContractError Unit := do
  wireTime checkedAt "checked_at"
  if ready then
    if reason.isSome ∨ retryAfterMs.isSome then refuse "ready responses cannot contain retry details" else .ok ()
  else
    match reason with
    | none => refuse "unready responses require a reason"
    | some reason => do
      checkReason reason
      match retryAfterMs with
      | some retryAfterMs => nonNegativeInt retryAfterMs "retry_after_ms"
      | none => .ok ()

structure Readiness where
  ready : Bool
  checkedAt : Datetime
  reason : Option Text
  retryAfterMs : Option Int
  valid : Readiness.postInit ready checkedAt reason retryAfterMs = .ok ()

def MutationOutcome.postInit (mutationId : Text) (state : MutationOutcomeState) (revision : Option Int)
    (receiptId reason : Option Text) : Except ContractError Unit := do
  opaqueId mutationId "mutation_id" none
  optionalId receiptId "receipt_id"
  match state, revision, reason with
  | .applied, some revision, none => nonNegativeInt revision "revision"
  | .applied, _, _ => refuse "applied outcomes require revision and forbid reason"
  | _, none, some reason => checkReason reason
  | _, _, _ => refuse "non-applied outcomes require reason and forbid revision"

structure MutationOutcome where
  mutationId : Text
  state : MutationOutcomeState
  revision : Option Int
  receiptId : Option Text
  reason : Option Text
  valid : MutationOutcome.postInit mutationId state revision receiptId reason = .ok ()

def MutationOutcomes.postInit (datasetId : Text) (generation : Int) (outcomes : List MutationOutcome) :
    Except ContractError Unit := do
  opaqueId datasetId "dataset_id" none
  nonNegativeInt generation "generation"
  if outcomes = [] ∨ SyncLimits.default.maxMutations < outcomes.length then
    refuse "outcomes must be non-empty and within max_mutations"
  else if ¬(outcomes.map MutationOutcome.mutationId).Nodup then refuse "mutation outcome identifiers must be unique"
  else .ok ()

structure MutationOutcomes where
  datasetId : Text
  generation : Int
  outcomes : List MutationOutcome
  valid : MutationOutcomes.postInit datasetId generation outcomes = .ok ()

inductive SyncDocument
  | session (document : SyncSession)
  | dataset (document : DatasetDescriptor)
  | bootstrapRequest (document : BootstrapRequest)
  | bootstrapResponse (document : BootstrapResponse)
  | snapshot (document : SnapshotPage)
  | delta (document : DeltaPage)
  | resetRequired (document : ResetRequired)
  | generationMismatch (document : GenerationMismatch)
  | readiness (document : Readiness)
  | mutationOutcome (document : MutationOutcome)
  | mutationOutcomes (document : MutationOutcomes)

/-- `format_sync_timestamp`: sub-millisecond precision is not discarded. -/
def formatSyncTimestamp (value : Datetime) : Except ContractError Text := do
  wireTime value "timestamp"
  return value.milliseconds

/-- `parse_sync_timestamp`: the protocol's exact RFC 3339 UTC millisecond representation. -/
def parseSyncTimestamp (value : Text) : Except ContractError Datetime :=
  match timestampFields value with
  | none => refuse "timestamp must be RFC 3339 UTC with exactly three fractional digits"
  | some fields =>
    match fromFields fields with
    | none => refuse "timestamp is not a valid calendar instant"
    | some parsed => do
      wireTime parsed "timestamp"
      let formatted ← formatSyncTimestamp parsed
      if formatted ≠ value then refuse "timestamp is not an exact calendar representation" else .ok parsed

end Pytitect.Sync
