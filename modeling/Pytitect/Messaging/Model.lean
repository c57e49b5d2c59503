import Pytitect.Sync.Timestamps
import Pytitect.Wire.Fingerprints

namespace Pytitect.Messaging
open Wire

def messageProfile : Text := "titect-message/1".codePoints

def exactMessageProfile : Text := "titect-message/2".codePoints

def cloudEventsSpecVersion : Text := "1.0".codePoints

def jsonContentType : Text := "application/json".codePoints

/-- The members of an envelope besides its data. -/
structure Metadata where
  id : Text
  source : Text
  type : Text
  subject : Text
  time : ZonedDatetime
  dataschema : Text
  correlationid : Option Text
  causationid : Option Text
  specversion : Text
  datacontenttype : Text
  profile : Text
  deriving DecidableEq

/-- Refuse with a `ValueError` unless the condition holds. -/
def ensure (condition : Bool) (message : String) : Except PyError Unit :=
  if condition then .ok () else .error (.valueError message)

theorem ensure_ok {condition : Bool} {message : String} : ensure condition message = .ok () ↔ condition = true := by
  unfold ensure
  split
  · rename_i holds
    simp [holds]
  · rename_i fails
    simp [fails]

def isLetter (c : CodePoint) : Bool := (0x41 ≤ c.val && c.val ≤ 0x5a) || (0x61 ≤ c.val && c.val ≤ 0x7a)

/-- `_EVENT_TYPE.fullmatch` -/
def isEventType : Text → Bool
  | [] => false
  | first :: rest => isLetter first && rest.length ≤ 254 &&
    rest.all fun c => isLetter c || JsonText.isDigit c || c = 0x2e || c = 0x5f || c = 0x2d

/-- A text that is there and trimmed. -/
def isNamed (value : Text) : Bool := value ≠ [] && value.trimmed

/-- `Message.__post_init__` -/
def Metadata.postInit (m : Metadata) (data : JsonValue) : Except PyError Unit := do
  ensure (isNamed m.id) "message id must be non-empty and trimmed"
  ensure (isNamed m.source) "message source must be non-empty and trimmed"
  ensure (isNamed m.subject) "message subject must be non-empty and trimmed"
  ensure (isNamed m.dataschema) "message dataschema must be non-empty and trimmed"
  ensure (isEventType m.type) "message type is invalid"
  ensure (m.correlationid.all isNamed) "message correlationid must be non-empty and trimmed when present"
  ensure (m.causationid.all isNamed) "message causationid must be non-empty and trimmed when present"
  ensure (m.specversion = cloudEventsSpecVersion) "specversion must be 1.0"
  ensure (m.datacontenttype = jsonContentType) "datacontenttype must be application/json"
  ensure (m.profile = messageProfile) "profile must be titect-message/1"
  IsoLibrary.requireMillisecondUtc m.time
  validateJson data .default

/-- `Message`: a closed message in the first profile. A `dict` in its data has no key twice. -/
structure Message where
  metadata : Metadata
  data : JsonValue
  proper : data.Proper
  valid : metadata.postInit data = .ok ()

/-- `ExactMessage.__post_init__` -/
def Metadata.exactPostInit (m : Metadata) : Except WireError Unit :=
  if m.profile ≠ exactMessageProfile then .error .profile
  else
    match { m with profile := messageProfile }.postInit .null with
    | .ok _ => .ok ()
    | .error _ => .error .shape

/-- `ExactMessage`: a message in the second profile, whose data has passed the constructor of documents. -/
@[ext] structure ExactMessage where
  metadata : Metadata
  data : WireDocument
  made : ∃ source limits, WireDocument.make source limits = .ok data
  valid : metadata.exactPostInit = .ok ()

/-- `MessageValue` -/
inductive MessageValue
  | legacy (message : Message)
  | exact (message : ExactMessage)

end Pytitect.Messaging
