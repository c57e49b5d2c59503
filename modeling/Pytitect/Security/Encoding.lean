import Pytitect.Json

namespace Pytitect

/-- A text as it appears in a message. -/
def shownText (text : Text) : String := String.ofList (text.map fun c => Char.ofNat c.val)

/-- The digit of a sextet in the URL-safe alphabet. -/
def base64Digit (sextet : Nat) : CodePoint :=
  if sextet < 26 then Fin.ofNat 0x110000 (0x41 + sextet)
  else if sextet < 52 then Fin.ofNat 0x110000 (0x61 + sextet - 26)
  else if sextet < 62 then Fin.ofNat 0x110000 (0x30 + sextet - 52)
  else if sextet = 62 then 0x2d
  else 0x5f

/-- The sextet of a digit. The decoder also takes the digits `+` and `/`, which
`altchars` stands for. -/
def base64Sextet (digit : CodePoint) : Option Nat :=
  if 0x41 ≤ digit ∧ digit ≤ 0x5a then some (digit.val - 0x41)
  else if 0x61 ≤ digit ∧ digit ≤ 0x7a then some (digit.val - 0x61 + 26)
  else if 0x30 ≤ digit ∧ digit ≤ 0x39 then some (digit.val - 0x30 + 52)
  else if digit = 0x2d ∨ digit = 0x2b then some 62
  else if digit = 0x5f ∨ digit = 0x2f then some 63
  else none

/-- The bytes of a run of sextets; one left over is an error. -/
def base64Bytes : List Nat → Option (List UInt8)
  | [] => some []
  | [_] => none
  | [a, b] => some [.ofNat (a * 4 + b / 16)]
  | [a, b, c] => some [.ofNat (a * 4 + b / 16), .ofNat (b % 16 * 16 + c / 4)]
  | a :: b :: c :: d :: rest =>
    (base64Bytes rest).map fun bytes =>
      .ofNat (a * 4 + b / 16) :: .ofNat (b % 16 * 16 + c / 4) :: .ofNat (c % 4 * 64 + d) :: bytes

/-- `base64url_encode`: without padding. -/
def base64urlEncode : List UInt8 → Text
  | [] => []
  | [a] => [base64Digit (a.toNat / 4), base64Digit (a.toNat % 4 * 16)]
  | [a, b] =>
    [base64Digit (a.toNat / 4), base64Digit (a.toNat % 4 * 16 + b.toNat / 16), base64Digit (b.toNat % 16 * 4)]
  | a :: b :: c :: rest =>
    base64Digit (a.toNat / 4) :: base64Digit (a.toNat % 4 * 16 + b.toNat / 16) ::
      base64Digit (b.toNat % 16 * 4 + c.toNat / 64) :: base64Digit (c.toNat % 64) :: base64urlEncode rest

/-- `base64url_decode`: only what encodes back to itself. -/
def base64urlDecode (value : Text) : Except PyError (List UInt8) :=
  if value = [] ∨ 0x3d ∈ value then .error (.valueError "base64url input must be non-empty and unpadded")
  else
    match (value.mapM base64Sextet).bind base64Bytes with
    | none => .error (.valueError "malformed base64url value")
    | some decoded =>
      if base64urlEncode decoded ≠ value then .error (.valueError "base64url value is not canonical")
      else .ok decoded

namespace JsonValue

def maxSafeInteger : Nat := 9007199254740991

def validateText (text : Text) : Except PyError Unit :=
  if text.any CodePoint.isSurrogate then .error (.valueError "I-JSON strings must not contain lone surrogates")
  else .ok ()

mutual

/-- `validate_ijson`: interoperable integers, finite numbers and no lone surrogate. -/
def validateIjson : JsonValue → Except PyError Unit
  | .null => .ok ()
  | .bool _ => .ok ()
  | .int value =>
    if maxSafeInteger < value.natAbs then .error (.valueError "I-JSON integers must be IEEE-754 interoperable") else .ok ()
  | .float bits => if isFinite bits then .ok () else .error (.valueError "I-JSON numbers must be finite")
  | .str text => validateText text
  | .list items => validateItems items
  | .dict members => validateMembers members

def validateItems : List JsonValue → Except PyError Unit
  | [] => .ok ()
  | item :: rest => do
    validateIjson item
    validateItems rest

def validateMembers : List (Text × JsonValue) → Except PyError Unit
  | [] => .ok ()
  | (key, item) :: rest => do
    validateText key
    validateIjson item
    validateMembers rest

end

/-- The hook `object_pairs`: no member occurs twice. -/
def objectPairs : List Text → List (Text × JsonValue) → Except PyError Unit
  | _, [] => .ok ()
  | seen, (key, _) :: rest =>
    if key ∈ seen then .error (.valueError ("duplicate JSON member: " ++ shownText key))
    else objectPairs (key :: seen) rest

mutual

/-- The hook is called for every object, inner ones first. -/
def hooked : JsonValue → Except PyError Unit
  | .list items => hookedItems items
  | .dict members => do
    hookedMembers members
    objectPairs [] members
  | _ => .ok ()

def hookedItems : List JsonValue → Except PyError Unit
  | [] => .ok ()
  | item :: rest => do
    hooked item
    hookedItems rest

def hookedMembers : List (Text × JsonValue) → Except PyError Unit
  | [] => .ok ()
  | (_, item) :: rest => do
    hooked item
    hookedMembers rest

end

/-- `dict.get`: an absent member is `None`, as is a null one. -/
def get (members : List (Text × JsonValue)) (name : String) : JsonValue := (members.lookup name.codePoints).getD .null

/-- `isinstance(value, str) and value == text`. -/
def isText (value : JsonValue) (text : Text) : Bool :=
  match value with
  | .str found => found = text
  | _ => false

end JsonValue

/-- What the verifiers take from the standard library and other packages. -/
structure Platform where
  /-- `json.loads`; an object lists its members as they are written. -/
  loads : List UInt8 → Except PyError JsonValue
  /-- `rfc8785.dumps`. -/
  dumps : JsonValue → Except PyError (List UInt8)
  sha256 : List UInt8 → List UInt8
  upper : Text → Text
  lower : Text → Text

namespace Platform
variable (platform : Platform)

def parseIjson (payload : List UInt8) : Except PyError JsonValue := do
  let value ← platform.loads payload
  value.hooked
  value.validateIjson
  return value

def canonicalJson (value : JsonValue) : Except PyError (List UInt8) := do
  value.validateIjson
  match platform.dumps value with
  | .ok bytes => .ok bytes
  | .error (.raised "ImportError") => .error (.runtimeError "install pytitect[canonical-json] for RFC 8785 support")
  | .error (.raised "TypeError") => .error (.valueError "value cannot be canonicalized as RFC 8785")
  | .error (.valueError message) => .error (.valueError ("value cannot be canonicalized as RFC 8785: " ++ message))
  | .error (.overflowError message) => .error (.valueError ("value cannot be canonicalized as RFC 8785: " ++ message))
  | .error error => .error error

/-- The members of a key that identify it, by its type. -/
def requiredMembers (keyType : Text) : Option (List String) :=
  if keyType = "EC".codePoints then some ["crv", "kty", "x", "y"]
  else if keyType = "RSA".codePoints then some ["e", "kty", "n"]
  else if keyType = "OKP".codePoints then some ["crv", "kty", "x"]
  else if keyType = "oct".codePoints then some ["k", "kty"]
  else none

def isStr : JsonValue → Bool
  | .str _ => true
  | _ => false

def jwkThumbprint (jwk : List (Text × JsonValue)) : Except PyError Text :=
  match JsonValue.get jwk "kty" with
  | .str keyType =>
    match requiredMembers keyType with
    | none => .error (.valueError "unsupported JWK key type")
    | some required =>
      if required.any fun name => !isStr (JsonValue.get jwk name) then
        .error (.valueError "JWK is missing required string members")
      else do
        let canonical ← platform.canonicalJson (.dict (required.map fun name => (name.codePoints, JsonValue.get jwk name)))
        return base64urlEncode (platform.sha256 canonical)
  | _ => .error (.valueError "JWK key type must be a string")

def accessTokenHash (accessToken : Text) : Except PyError Text :=
  if accessToken = [] then .error (.valueError "access token must not be empty")
  else
    match accessToken.encode with
    | none => .error .unicodeError
    | some bytes => .ok (base64urlEncode (platform.sha256 bytes))

end Platform

end Pytitect
