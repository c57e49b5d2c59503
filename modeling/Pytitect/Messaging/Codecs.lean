import Pytitect.Messaging.Envelope
import Pytitect.Wire.Growth

namespace Pytitect
open Wire Text

/-- `replace(limits, max_body_bytes=size)` -/
def Limits.withBody (limits : Limits) (size : Nat) (positive : 0 < size) : Limits :=
  ⟨size, limits.maxJsonDepth, limits.maxJsonItems, limits.maxMetadataItems, limits.maxStringLength,
    positive, limits.positive.2⟩

namespace JsonValue

mutual

def decideProper : (value : JsonValue) → Decidable value.Proper
  | .null => .isTrue trivial
  | .bool _ => .isTrue trivial
  | .int _ => .isTrue trivial
  | .float _ => .isTrue trivial
  | .str _ => .isTrue trivial
  | .list items => decideProperAll items
  | .dict members =>
    have := decideProperMembers members
    inferInstanceAs (Decidable ((members.map Prod.fst).Nodup ∧ ProperMembers members))

def decideProperAll : (items : List JsonValue) → Decidable (ProperAll items)
  | [] => .isTrue trivial
  | item :: rest =>
    have := decideProper item
    have := decideProperAll rest
    inferInstanceAs (Decidable (Proper item ∧ ProperAll rest))

def decideProperMembers : (members : List (Text × JsonValue)) → Decidable (ProperMembers members)
  | [] => .isTrue trivial
  | (_, item) :: rest =>
    have := decideProper item
    have := decideProperMembers rest
    inferInstanceAs (Decidable (Proper item ∧ ProperMembers rest))

end

instance (value : JsonValue) : Decidable value.Proper := value.decideProper

end JsonValue

namespace Messaging

/-- `JsonMessageCodec`. Its bound for bytes is the smaller one of its two arguments. -/
structure JsonMessageCodec where
  limits : Limits
  maxEnvelopeBytes : Nat
  positive : 0 < maxEnvelopeBytes ∧ maxEnvelopeBytes ≤ limits.maxBodyBytes

theorem bytes_positive {maxEnvelopeBytes : Int} (positive : 0 < maxEnvelopeBytes) : 0 < maxEnvelopeBytes.toNat := by omega

/-- `JsonMessageCodec.__init__` -/
def JsonMessageCodec.make (limits : Option Limits) (maxEnvelopeBytes : Int) : Except PyError JsonMessageCodec :=
  if positive : 0 < maxEnvelopeBytes then
    let selected := limits.getD (Limits.default.withBody maxEnvelopeBytes.toNat (bytes_positive positive))
    .ok ⟨selected, min selected.maxBodyBytes maxEnvelopeBytes.toNat, by
      have some := selected.positive.1
      omega⟩
  else .error (.valueError "max_envelope_bytes must be a positive integer")

/-- The limits of the codec with its bound for bytes. -/
def JsonMessageCodec.selected (codec : JsonMessageCodec) : Limits := codec.limits.withBody codec.maxEnvelopeBytes codec.positive.1

/-- `ExactJsonMessageCodec` -/
structure ExactJsonMessageCodec where
  limits : Limits

/-- `ExactJsonMessageCodec.__init__`, which chooses its limits as the other codec does. -/
def ExactJsonMessageCodec.make (limits : Option Limits) (maxEnvelopeBytes : Int) : Except PyError ExactJsonMessageCodec := do
  let codec ← JsonMessageCodec.make limits maxEnvelopeBytes
  return ⟨codec.selected⟩

/-- `WireDocument(value, limits=limits).encode()` -/
def encodeValue (value : ExactTree) (limits : Limits) : Except WireError (List UInt8) := do
  let document ← WireDocument.make value limits
  document.encode

namespace ExactJsonMessageCodec
variable (codec : ExactJsonMessageCodec)

def encode (message : MessageValue) : Except CodecError (List UInt8) :=
  match message with
  | .legacy _ => .error (.wire .profile)
  | .exact message => do
    let members ← raising (envelope .str message.metadata message.data.value)
    onWire (encodeValue (.object members) codec.limits)

end ExactJsonMessageCodec

/-- The constructor of exact messages, with the document that its data is made into first. -/
def ExactMessage.make (metadata : Metadata) (source : ExactTree) (limits : Limits) : Except WireError ExactMessage :=
  match made : WireDocument.make source limits with
  | .error error => .error error
  | .ok data =>
    match valid : metadata.exactPostInit with
    | .error error => .error error
    | .ok () => .ok ⟨metadata, data, ⟨source, limits, made⟩, valid⟩

/-- The members of a mapping. -/
def mapping : ExactTree → List (Text × ExactTree)
  | .object members => members
  | _ => []

/-- A message from the texts of its metadata and the mapping with its data. Whatever fails here is an error of shape. -/
def construct {α β : Type} (library : IsoLibrary) (profile : Text) (metadata : List (Text × Text)) (members : List (Text × β))
    (make : Metadata → β → Except CodecError α) : Except CodecError α :=
  orShape do
    let written ← getItem metadata "time"
    let time ← raising (library.parseMessageTime written)
    let data ← getItem members "data"
    let made ← raising (Metadata.ofArguments (messageArguments metadata) time profile)
    make made data

namespace ExactJsonMessageCodec

def decodeStream (library : IsoLibrary) (codec : ExactJsonMessageCodec) (chunks : List (List UInt8)) : Except CodecError ExactMessage := do
  let document ← onWire (decodeWireStream chunks codec.limits)
  let metadata ← onWire (metadataOf document.value exactMessageProfile)
  construct library exactMessageProfile metadata (mapping document.value) fun metadata data =>
    onWire (ExactMessage.make metadata data codec.limits)

def decode (library : IsoLibrary) (codec : ExactJsonMessageCodec) (payload : List UInt8) : Except CodecError ExactMessage :=
  codec.decodeStream library [payload]

end ExactJsonMessageCodec

/-- `Message.__init__`. A `dict` in the data has no key twice. -/
def Message.make (metadata : Metadata) (data : JsonValue) : Except PyError Message :=
  if proper : data.Proper then
    match valid : metadata.postInit data with
    | .error error => .error error
    | .ok () => .ok ⟨metadata, data, proper, valid⟩
  else .error (.raised "AssertionError")

/-- The items of a `dict`. -/
def dictItems : JsonValue → List (Text × JsonValue)
  | .dict members => members
  | _ => []

/-- `except ValueError:` with what is done then. -/
def orElse {α : Type} (result : Except PyError α) (next : Except CodecError α) : Except CodecError α :=
  match result with
  | .ok value => .ok value
  | .error error => if isValueError error then next else .error (.python error)

namespace JsonMessageCodec

def encode (interpreter : Interpreter) (codec : JsonMessageCodec) (message : MessageValue) : Except CodecError (List UInt8) :=
  match message with
  | .exact _ => .error (.wire .profile)
  | .legacy message => do
    let members ← raising (envelope .str message.metadata message.data)
    raising (validateJson (.dict members) codec.limits)
    let encoded ← orElse (canonicalJsonBytes interpreter (.dict members)) do
      -- Integers of any length keep their form.
      let value ← onWire (legacyValue interpreter (.dict members))
      onWire (encodeValue value codec.selected)
    if codec.maxEnvelopeBytes < encoded.length then .error (.python (.valueError "encoded message exceeds max_envelope_bytes"))
    else return encoded

def decodeStream (library : IsoLibrary) (codec : JsonMessageCodec) (chunks : List (List UInt8)) : Except CodecError Message := do
  let document ← onWire (decodeWireStream chunks codec.selected)
  let metadata ← onWire (metadataOf document.value messageProfile)
  let ordinary ← onWire (ordinary false document.value)
  construct library messageProfile metadata (dictItems ordinary) fun metadata data => raising (Message.make metadata data)

def decodeRaw (library : IsoLibrary) (codec : JsonMessageCodec) (payload : List UInt8) : Except CodecError Message :=
  codec.decodeStream library [payload]

/-- The messages of `decode` for the codes of errors. -/
def errorText : WireError → Option String
  | .limits => some "encoded message exceeds max_envelope_bytes or JSON allocation limits"
  | .shape => some "message fields do not match the closed profile"
  | .malformed => some "message must be valid UTF-8 JSON"
  | .precision => some "JSON numbers must be finite"
  | .profile => some "unsupported message profile"
  | _ => none

def decode (library : IsoLibrary) (codec : JsonMessageCodec) (payload : List UInt8) : Except CodecError Message :=
  match codec.decodeRaw library payload with
  | .error (.wire error) =>
    match errorText error with
    | some message => .error (.python (.valueError message))
    | none => .error (.python (.raised "KeyError"))
  | result => result

end JsonMessageCodec

end Messaging

end Pytitect
