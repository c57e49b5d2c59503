import Pytitect.Sync.Documents
import Pytitect.Wire.Numbers

namespace Pytitect.Sync
open Wire

/-- The errors of the raw boundary: its own, those of the contracts, and whatever a policy raises. -/
inductive RawError
  | wire (error : WireError)
  | contract (error : ContractError)
  | raised (error : PyError)

def liftWire {α : Type} : Except WireError α → Except RawError α
  | .ok value => .ok value
  | .error error => .error (.wire error)

def liftContract {α : Type} : Except ContractError α → Except RawError α
  | .ok value => .ok value
  | .error error => .error (.contract error)

/-- `_object` of the raw boundary. -/
def mapping (value : ExactTree) : Except WireError (List (Text × ExactTree)) :=
  match value with
  | .object members => .ok members
  | _ => .error .shape

/-- `Mapping.get`: an absent member is `None`, as is a null one. -/
def lookup (members : List (Text × ExactTree)) (name : String) : ExactTree :=
  (members.lookup name.codePoints).getD .null

/-- `dict` with one member assigned. -/
def assign {β : Type} (members : List (Text × β)) (name : String) (value : β) : List (Text × β) :=
  if name.codePoints ∈ members.map Prod.fst then
    members.map fun member => if member.1 = name.codePoints then (member.1, value) else member
  else members ++ [(name.codePoints, value)]

/-- `value == text` -/
def isText (value : ExactTree) (text : Text) : Bool :=
  match value with
  | .str found => found = text
  | _ => false

/-- `value in ("snapshot", "delta")` -/
def isPageKind (value : ExactTree) : Bool := isText value "snapshot".codePoints || isText value "delta".codePoints

/-- `_shape_value`: every number must be an integer. -/
def shapeValue (value : ExactTree) : Except WireError JsonValue := convert (fun number => number.toInt.map .int) value

/-- The `value` of an upsert as `_validate_shape` looks for it. -/
def upsertValue (item : ExactTree) : Option ExactTree :=
  match item with
  | .object members => members.lookup "value".codePoints
  | _ => none

/-- `{**item, "value": None}` of the items that have a value. -/
def blanked (item : ExactTree) : ExactTree :=
  match item with
  | .object members => if "value".codePoints ∈ members.map Prod.fst then .object (assign members "value" .null) else item
  | _ => item

/-- The loop that builds a `WireDocument` of every upsert value, with the default limits. -/
def checkValues : List ExactTree → Except WireError Unit
  | [] => .ok ()
  | item :: rest => do
    match upsertValue item with
    | some value => let _ ← WireDocument.make value .default
    | none => pure ()
    checkValues rest

/-- The payload without the upsert values, which stay exact. -/
def projectedPayload (payload : List (Text × ExactTree)) : Except WireError (List (Text × ExactTree)) :=
  match lookup payload "upserts" with
  | .array upserts => do
    checkValues upserts
    return assign payload "upserts" (.array (upserts.map blanked))
  | _ => .ok payload

/-- The envelope that `_validate_shape` gives to the contract decoder. -/
def projected (envelope : List (Text × ExactTree)) : Except WireError (List (Text × ExactTree)) :=
  match lookup envelope "payload" with
  | .object payload =>
    if isPageKind (lookup envelope "kind") then do
      return assign envelope "payload" (.object (← projectedPayload payload))
    else .ok envelope
  | _ => .ok envelope

/-- `_validate_shape`. Every error of the contract decoder is a shape error. -/
def validateShape (document : WireDocument) (limits : SyncLimits) : Except WireError Unit := do
  let envelope ← mapping document.value
  match lookup envelope "protocol" with
  | .str protocol =>
    if protocol ≠ syncProtocol then .error .profile
    else do
      let projected ← projected envelope
      match shapeValue (.object projected) with
      | .error _ => .error .shape
      | .ok value =>
        match decodeBoundedDocument value limits with
        | .error _ => .error .shape
        | .ok _ => .ok ()
  | _ => .error .shape

/-- `SyncWireDocument`: a validated exact envelope. -/
structure SyncWireDocument where
  document : WireDocument
  limits : SyncLimits
  valid : validateShape document limits = .ok ()

/-- `SyncWireDocument(document, limits)` -/
def SyncWireDocument.make (document : WireDocument) (limits : SyncLimits) : Except WireError SyncWireDocument :=
  match shaped : validateShape document limits with
  | .ok () => .ok ⟨document, limits, shaped⟩
  | .error error => .error error

/-- `SyncWireDocument.to_contract` -/
def SyncWireDocument.toContract (raw : SyncWireDocument) : Except RawError SyncDocument := do
  let value ← liftWire raw.document.toJson
  liftContract (decodeBoundedDocument value raw.limits)

/-- `SyncIntegrityPolicy`. Its capability is a property and may read otherwise at another moment. -/
structure SyncIntegrityPolicy where
  capability : Nat → Text
  verify : WireDocument → Except RawError Unit

/-- `SyncIntegritySelection`: the policy and its capability when it was selected. -/
structure SyncIntegritySelection where
  policy : Option SyncIntegrityPolicy
  capability : Option Text

/-- `SyncIntegritySelection(policy)` at a moment. -/
def SyncIntegritySelection.make (policy : Option SyncIntegrityPolicy) (moment : Nat) :
    Except WireError SyncIntegritySelection :=
  let capability := policy.map fun policy => policy.capability moment
  if capability = some [] then .error .profile else .ok ⟨policy, capability⟩

def SyncIntegritySelection.acknowledge (selection : SyncIntegritySelection) (responseHeader : Option Text) (moment : Nat) :
    Except WireError Unit :=
  let current := selection.policy.map fun policy => policy.capability moment
  if responseHeader ≠ selection.capability ∨ current ≠ selection.capability then .error .integrity else .ok ()

/-- The loop that fills the registry of `select_sync_integrity`. -/
def register (moment : Nat) (registry : Dict Text SyncIntegrityPolicy) :
    List SyncIntegrityPolicy → Except WireError (Dict Text SyncIntegrityPolicy)
  | [] => .ok registry
  | policy :: rest =>
    if policy.capability moment = [] ∨ policy.capability moment ∈ registry.keys then .error .profile
    else register moment (registry.set (policy.capability moment) policy) rest

/-- `name.startswith("integrity-") and name != "integrity-sha-256"` -/
def isExactIntegrity (name : Text) : Bool :=
  "integrity-".codePoints.isPrefixOf name && name ≠ "integrity-sha-256".codePoints

/-- The selection for the names asked for; never a fallback. -/
def chosenSelection (registry : Dict Text SyncIntegrityPolicy) (names : List Text) (moment : Nat) :
    Except WireError SyncIntegritySelection :=
  match names with
  | [] => SyncIntegritySelection.make none moment
  | [name] => SyncIntegritySelection.make (registry.get? name) moment
  | _ => .error .profile

/-- `select_sync_integrity` -/
def selectSyncIntegrity (requested : List Text) (acknowledgement : Option Text) (policies : List SyncIntegrityPolicy)
    (moment : Nat) : Except WireError SyncIntegritySelection := do
  let registry ← register moment .empty policies
  let requestedIntegrity := requested.filter isExactIntegrity
  if requestedIntegrity.any fun name => name ∉ registry.keys then .error .profile
  else do
    let selection ← chosenSelection registry requestedIntegrity moment
    selection.acknowledge acknowledgement moment
    return selection

/-- The allocation limits of `decode_sync_stream`. -/
def allocation (selected : SyncLimits) (wireLimits : Option Limits) : Limits :=
  let limits : Limits := wireLimits.getD
    ⟨selected.maxDocumentBytes, Limits.default.maxJsonDepth, max 10000 (selected.maxItemsPerPage * 8),
      Limits.default.maxMetadataItems, selected.maxDocumentBytes, by
        have positive := selected.positive
        have fixed := Limits.default.positive
        omega⟩
  ⟨min limits.maxBodyBytes selected.maxDocumentBytes, limits.maxJsonDepth, limits.maxJsonItems, limits.maxMetadataItems,
    limits.maxStringLength, by
      have positive := selected.positive
      have fixed := limits.positive
      omega⟩

/-- A page is verified by the selected policy. -/
def verifyPage (policy : Option SyncIntegrityPolicy) (envelope : List (Text × ExactTree)) (document : WireDocument) :
    Except RawError Unit :=
  match policy with
  | some policy => if isPageKind (lookup envelope "kind") then policy.verify document else .ok ()
  | none => .ok ()

/-- `decode_sync_stream`, with the capability of the policy read at a moment. -/
def decodeSyncStream (chunks : List (List UInt8)) (limits : SyncLimits) (wireLimits : Option Limits)
    (integrity : Option SyncIntegritySelection) (acknowledgement : Option Text) (moment : Nat) :
    Except RawError SyncWireDocument := do
  let selection := integrity.getD ⟨none, none⟩
  liftWire (selection.acknowledge acknowledgement moment)
  let document ← liftWire (decodeWireStream chunks (allocation limits wireLimits))
  let envelope ← liftWire (mapping document.value)
  verifyPage selection.policy envelope document
  liftWire (SyncWireDocument.make document limits)

/-- `decode_sync_raw` -/
def decodeSyncRaw (payload : List UInt8) (limits : SyncLimits) (wireLimits : Option Limits)
    (integrity : Option SyncIntegritySelection) (acknowledgement : Option Text) (moment : Nat) :
    Except RawError SyncWireDocument :=
  decodeSyncStream [payload] limits wireLimits integrity acknowledgement moment

end Pytitect.Sync
