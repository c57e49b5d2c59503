import Pytitect.Lib.Binary64
import Pytitect.Security.Base64
import Pytitect.Security.Signatures

namespace Pytitect.Sync

inductive CursorAlgorithm
  | hs256
  | a256gcm
  deriving DecidableEq, Repr

def CursorAlgorithm.value : CursorAlgorithm → Text
  | hs256 => "HS256".codePoints
  | a256gcm => "A256GCM".codePoints

/-- `_algorithm` -/
def CursorAlgorithm.ofValue (value : Text) : Except PyError CursorAlgorithm :=
  if value = "HS256".codePoints then .ok .hs256
  else if value = "A256GCM".codePoints then .ok .a256gcm
  else .error (.valueError "algorithm must be HS256 or A256GCM")

structure CursorLimits where
  maxTokenBytes : Nat
  maxPayloadBytes : Nat
  maxContextLength : Nat
  positive : 0 < maxTokenBytes ∧ 0 < maxPayloadBytes ∧ 0 < maxContextLength
  deriving DecidableEq

def CursorLimits.default : CursorLimits := ⟨16384, 8192, 255, by decide⟩

structure CursorDecoded where
  payload : List UInt8
  kid : Text
  expiresAt : Option Int
  deriving DecidableEq

structure CursorRejected where
  code : String
  detail : String
  deriving DecidableEq

abbrev CursorDecodeResult := Except CursorRejected CursorDecoded

/-- Why a token is not decoded: it is rejected, or a step of the decoder raises. -/
inductive CursorRefusal
  | rejected (result : CursorRejected)
  | raised (error : PyError)
  deriving DecidableEq

/-- What the codec takes from `hmac` and `AESGCM`. Whatever `decrypt` raises counts as no answer. -/
structure CursorCrypto where
  digest : List UInt8 → List UInt8 → List UInt8
  encrypt : List UInt8 → List UInt8 → List UInt8 → List UInt8 → Except PyError (List UInt8)
  decrypt : List UInt8 → List UInt8 → List UInt8 → List UInt8 → Option (List UInt8)

structure OpaqueCursorCodec where
  keyResolver : Text → CursorAlgorithm → Option (List UInt8)
  limits : CursorLimits

/-- The members of a header once they have the right types. -/
structure CursorHeader where
  algorithm : CursorAlgorithm
  kid : Text
  expiresAt : Option Int
  nonce : Option (List UInt8)

namespace OpaqueCursorCodec

def reject {α : Type} (code detail : String) : Except CursorRefusal α := .error (.rejected ⟨code, detail⟩)

def attempt {α : Type} : Except PyError α → Except CursorRefusal α
  | .ok value => .ok value
  | .error error => .error (.raised error)

/-- The resolver that a mapping is turned into. -/
def ofMapping (copied : Dict Text (List UInt8)) (limits : CursorLimits) : OpaqueCursorCodec :=
  ⟨fun kid _ => copied.get? kid, limits⟩

/-- What `_context` and `_header` both ask of a text. -/
def properContext (limits : CursorLimits) (value : Text) : Bool :=
  value ≠ [] && value.trimmed && value.length ≤ limits.maxContextLength

/-- `_context` -/
def context (dataset partition kid : Text) (limits : CursorLimits) : Except PyError Unit :=
  if !properContext limits dataset then .error (.valueError "cursor dataset is invalid")
  else if !properContext limits partition then .error (.valueError "cursor partition is invalid")
  else if !properContext limits kid then .error (.valueError "cursor kid is invalid")
  else .ok ()

def hmacKey (key : List UInt8) : Except PyError Unit :=
  if key.length < 32 then .error (.valueError "HS256 cursor keys must contain at least 32 bytes") else .ok ()

def aesKey (key : List UInt8) : Except PyError Unit :=
  if key.length ≠ 32 then .error (.valueError "A256GCM cursor keys must contain exactly 32 bytes") else .ok ()

/-- `int(value.timestamp())`: the timestamp is rounded to binary64 before it is truncated. -/
def wholeSeconds (instant : Int) : Int :=
  let magnitude := Binary64.round (instant.natAbs * 2 ^ Binary64.unitExponent) 1000000
  instant.sign * (Binary64.units magnitude / 2 ^ Binary64.unitExponent : Nat)

/-- The header that is written; an expiration or a nonce is a member only if there is one. -/
def headerJson (selected : CursorAlgorithm) (dataset partition kid : Text) (expiresAt : Option Int)
    (nonce : Option (List UInt8)) : JsonValue :=
  .dict ([("alg".codePoints, .str selected.value), ("dataset".codePoints, .str dataset), ("kid".codePoints, .str kid),
    ("partition".codePoints, .str partition), ("v".codePoints, .int 1)] ++
    (expiresAt.map fun instant => ("exp".codePoints, JsonValue.int (wholeSeconds instant))).toList ++
    (nonce.map fun bytes => ("nonce".codePoints, JsonValue.str (base64urlEncode bytes))).toList)

section
variable (platform : Platform) (crypto : CursorCrypto) (codec : OpaqueCursorCodec)

/-- `_resolve_key` -/
def resolveKey (kid : Text) (algorithm : CursorAlgorithm) : Except PyError (List UInt8) :=
  match codec.keyResolver kid algorithm with
  | none => .error (.valueError "cursor key identifier is unknown")
  | some key => .ok key

/-- The digest of the first two parts of an envelope. -/
def mac (key : List UInt8) (protectedText body : Text) : Except PyError (List UInt8) :=
  match Text.encode (protectedText ++ 0x2e :: body) with
  | none => .error .unicodeError
  | some message => .ok (crypto.digest key message)

def envelope (protectedText body auth : Text) : Text := protectedText ++ 0x2e :: (body ++ 0x2e :: auth)

/-- The two branches of `encode`; the nonce is what the nonce factory answers. -/
def sealed (selected : CursorAlgorithm) (key payload nonce : List UInt8) (header : Option (List UInt8) → JsonValue) :
    Except PyError Text :=
  match selected with
  | .hs256 => do
    hmacKey key
    let protectedBytes ← platform.canonicalJson (header none)
    let digest ← mac crypto key (base64urlEncode protectedBytes) (base64urlEncode payload)
    return envelope (base64urlEncode protectedBytes) (base64urlEncode payload) (base64urlEncode digest)
  | .a256gcm => do
    aesKey key
    if nonce.length ≠ 12 then .error (.valueError "A256GCM nonce_factory must return exactly 12 bytes")
    else do
      let protectedBytes ← platform.canonicalJson (header (some nonce))
      let encrypted ← crypto.encrypt key nonce payload protectedBytes
      return envelope (base64urlEncode protectedBytes) (base64urlEncode (encrypted.take (encrypted.length - 16)))
        (base64urlEncode (encrypted.drop (encrypted.length - 16)))

def encode (payload : List UInt8) (dataset partition kid algorithm : Text) (expiresAt : Option Int) (nonce : List UInt8) :
    Except PyError Text := do
  let selected ← CursorAlgorithm.ofValue algorithm
  context dataset partition kid codec.limits
  if payload = [] then .error (.valueError "cursor payload must not be empty")
  else if codec.limits.maxPayloadBytes < payload.length then .error (.valueError "cursor payload exceeds max_payload_bytes")
  else do
    let key ← resolveKey codec kid selected
    let token ← sealed platform crypto selected key payload nonce (headerJson selected dataset partition kid expiresAt)
    match token.encode with
    | none => .error .unicodeError
    | some bytes =>
      if codec.limits.maxTokenBytes < bytes.length then .error (.valueError "cursor exceeds max_token_bytes") else .ok token

def headerFields : List Text := ["alg", "dataset", "exp", "kid", "nonce", "partition", "v"].map String.codePoints

/-- `value == 1`, which also `True` and the float are. -/
def isOne : JsonValue → Bool
  | .int value => value = 1
  | .bool value => value
  | .float bits => bits = 0x3ff0000000000000
  | _ => false

def algorithmOf : JsonValue → Option CursorAlgorithm
  | .str value => (CursorAlgorithm.ofValue value).toOption
  | _ => none

def isContext (limits : CursorLimits) : JsonValue → Bool
  | .str value => properContext limits value
  | _ => false

/-- The expiration of a header, if it has one. -/
def expiration : JsonValue → Except CursorRefusal (Option Int)
  | .null => .ok none
  | .int exp =>
    match fromTimestamp exp with
    | .ok instant => .ok (some instant)
    | .error _ => reject "invalid_header" "cursor expiration is invalid"
  | _ => reject "invalid_header" "cursor expiration is invalid"

/-- The nonce of a header, which only one of the algorithms has. -/
def headerNonce : CursorAlgorithm → JsonValue → Except CursorRefusal (Option (List UInt8))
  | .a256gcm, .str encoded => do
    let nonce ← attempt (base64urlDecode encoded)
    if nonce.length ≠ 12 then reject "invalid_nonce" "A256GCM cursor nonce must be 96 bits" else .ok (some nonce)
  | .a256gcm, _ => reject "invalid_nonce" "A256GCM cursor nonce is absent"
  | .hs256, .null => .ok none
  | .hs256, _ => reject "invalid_header" "HS256 cursor must not contain a nonce"

/-- `_header` -/
def header (members : List (Text × JsonValue)) (dataset partition : Text) : Except CursorRefusal CursorHeader :=
  if ¬∀ name ∈ members.map Prod.fst, name ∈ headerFields then
    reject "invalid_header" "cursor header contains unknown members"
  else if !isOne (JsonValue.get members "v") then reject "unsupported_version" "cursor version is not supported"
  else
    match algorithmOf (JsonValue.get members "alg") with
    | none => reject "unsupported_algorithm" "cursor algorithm is not supported"
    | some algorithm =>
      match JsonValue.get members "kid" with
      | .str (k :: kid) =>
        if !(["kid", "dataset", "partition"].all fun name => isContext codec.limits (JsonValue.get members name)) then
          reject "invalid_header" "cursor context is invalid"
        else if !(JsonValue.get members "dataset").isText dataset || !(JsonValue.get members "partition").isText partition then
          reject "context_mismatch" "cursor dataset or partition does not match"
        else do
          let expiresAt ← expiration (JsonValue.get members "exp")
          let nonce ← headerNonce algorithm (JsonValue.get members "nonce")
          return ⟨algorithm, k :: kid, expiresAt, nonce⟩
      | _ => reject "invalid_header" "cursor kid is invalid"

/-- The payload of an envelope whose authentication holds. -/
def authenticate (header : CursorHeader) (key : List UInt8) (protectedText body : Text)
    (protectedBytes bodyBytes authBytes : List UInt8) : Except CursorRefusal (List UInt8) :=
  match header.algorithm with
  | .hs256 => do
    attempt (hmacKey key)
    let expected ← attempt (mac crypto key protectedText body)
    if expected ≠ authBytes then reject "invalid_auth" "cursor authentication failed" else .ok bodyBytes
  | .a256gcm => do
    attempt (aesKey key)
    match header.nonce with
    | some nonce =>
      if authBytes.length ≠ 16 then reject "invalid_nonce" "A256GCM cursor parameters are invalid"
      else
        match crypto.decrypt key nonce (bodyBytes ++ authBytes) protectedBytes with
        | some payload => .ok payload
        | none => reject "invalid_auth" "cursor authentication failed"
    | none => reject "invalid_nonce" "A256GCM cursor parameters are invalid"

/-- The part of `decode` that stands in the guarded block. -/
def opened (token dataset partition : Text) (now : Int) : Except CursorRefusal CursorDecoded :=
  match token.splitOn 0x2e with
  | [protectedText, body, auth] => do
    let protectedBytes ← attempt (base64urlDecode protectedText)
    let value ← attempt (platform.parseIjson protectedBytes)
    match value with
    | .dict members => do
      let canonical ← attempt (platform.canonicalJson (.dict members))
      if canonical ≠ protectedBytes then reject "noncanonical_header" "cursor header is not RFC 8785"
      else do
        let header ← codec.header members dataset partition
        match codec.keyResolver header.kid header.algorithm with
        | none => reject "unknown_key" "cursor key identifier is unknown"
        | some key => do
          let bodyBytes ← attempt (base64urlDecode body)
          let authBytes ← attempt (base64urlDecode auth)
          let payload ← authenticate crypto header key protectedText body protectedBytes bodyBytes authBytes
          if codec.limits.maxPayloadBytes < payload.length then reject "payload_too_large" "cursor payload exceeds its limit"
          else if header.expiresAt.any (· ≤ now) then reject "expired" "cursor has expired"
          else .ok ⟨payload, header.kid, header.expiresAt⟩
    | _ => reject "invalid_header" "cursor header must be an object"
  | _ => attempt (.error (.valueError "wrong number of values to unpack"))

/-- The exceptions that `decode` turns into a rejection: all of them are a `ValueError`. -/
def malformed : PyError → Bool
  | .valueError _ | .unicodeError => true
  | _ => false

/-- `decode`; without an instant of the caller the clock is read. -/
def decode (token dataset partition : Text) (now : Option Int) (clock : Int) : Except PyError CursorDecodeResult :=
  match token.encode with
  | none => .error .unicodeError
  | some bytes =>
    if codec.limits.maxTokenBytes < bytes.length then
      .ok (.error ⟨"cursor_too_large", "cursor exceeds max_token_bytes"⟩)
    else
      match opened platform crypto codec token dataset partition (now.getD clock) with
      | .ok found => .ok (.ok found)
      | .error (.rejected result) => .ok (.error result)
      | .error (.raised error) =>
        if malformed error then .ok (.error ⟨"malformed", "cursor envelope is malformed"⟩) else .error error

end

end OpaqueCursorCodec

end Pytitect.Sync
