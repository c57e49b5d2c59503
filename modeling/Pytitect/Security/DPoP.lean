import Pytitect.Security.Encoding
import Pytitect.Security.Signatures

namespace Pytitect

/-- What `urlsplit` finds; the port is only examined when it is read. -/
structure SplitResult where
  scheme : Text
  hostname : Option Text
  username : Option Text
  port : Except PyError (Option Nat)
  path : Text

/-- `DPoPVerifier`: only configurations that pass `__post_init__` exist. -/
structure DPoPVerifier where
  maxAge : Int
  clockSkew : Int
  replayTtl : Int
  positive : 0 < maxAge ∧ 0 < replayTtl
  skewed : 0 ≤ clockSkew

/-- A call of `verify` with the two instants at which it reads the clock, if it
gets so far: for the time window and for the reservation. -/
structure DPoPCall where
  proof : Text
  method : Text
  targetUri : Text
  accessToken : Option Text
  expectedNonce : Option Text
  checkedAt : Int
  reservedAt : Int

namespace DPoPVerifier
open HttpMessageSignatureVerifier (reject attempt)

def headerFields : List Text := ["typ".codePoints, "alg".codePoints, "jwk".codePoints]

def claimFields : List Text :=
  ["jti".codePoints, "htm".codePoints, "htu".codePoints, "iat".codePoints, "ath".codePoints, "nonce".codePoints]

def requiredClaims : List Text := ["jti".codePoints, "htm".codePoints, "htu".codePoints, "iat".codePoints]

def isHexDigit (c : CodePoint) : Bool := (0x30 ≤ c && c ≤ 0x39) || (0x61 ≤ c && c ≤ 0x66)

/-- `_is_uuid4`: the canonical text of a UUID of version 4. -/
def isUuid4 (value : Text) : Bool :=
  match value.splitOn 0x2d with
  | [a, b, c, d, e] =>
    [a, b, c, d, e].map List.length = [8, 4, 4, 4, 12] && [a, b, c, d, e].all (·.all isHexDigit) &&
      c.head? = some 0x34 && d.head?.any (· ∈ "89ab".codePoints)
  | _ => false

section
variable (platform : Platform) (urlsplit : Text → Except PyError SplitResult)
  (jwtDecode : Text → List (Text × JsonValue) → Except PyError Unit) (verifier : DPoPVerifier)

/-- `_normalize_htu`. -/
def normalizeHtu (value : Text) : Except PyError Text := do
  let parsed ← urlsplit value
  let scheme := platform.lower parsed.scheme
  match parsed.hostname with
  | some (h :: hostname) =>
    if scheme ∉ ["http".codePoints, "https".codePoints] ∨ parsed.username.any (· ≠ []) then
      .error (.valueError "not an absolute HTTP URI")
    else do
      let port ← parsed.port
      let defaultPort := if scheme = "http".codePoints then 80 else 443
      let host := platform.lower (h :: hostname)
      let bracketed := if 0x3a ∈ host ∧ host.head? ≠ some 0x5b then [0x5b] ++ host ++ [0x5d] else host
      let authority :=
        match port with
        | some number => if number ≠ defaultPort then bracketed ++ [0x3a] ++ (toString number).codePoints else bracketed
        | none => bracketed
      let path := if parsed.path.head? = some 0x2f then parsed.path else 0x2f :: parsed.path
      return scheme ++ "://".codePoints ++ authority ++ path
  | _ => .error (.valueError "not an absolute HTTP URI")

/-- `_verify_signature`. -/
def verifySignature (proof : Text) (jwk : List (Text × JsonValue)) : Except Refusal Unit :=
  match jwtDecode proof jwk with
  | .ok () => .ok ()
  | .error (.raised "ImportError") => .error (.raised (.runtimeError "install pytitect[dpop] to verify DPoP"))
  | .error _ => reject "invalid_signature" "DPoP signature verification failed"

/-- The claims and the key of a proof whose signature holds. -/
structure SignedClaims where
  claims : List (Text × JsonValue)
  jwk : List (Text × JsonValue)

/-- The part of `verify` that looks at the proof alone. -/
def decodeProof (proof : Text) : Except Refusal SignedClaims :=
  match proof.splitOn 0x2e with
  | [h :: header, c :: claims, s :: signature] => do
    let headerRaw ← attempt (base64urlDecode (h :: header))
    let claimsRaw ← attempt (base64urlDecode (c :: claims))
    let _ ← attempt (base64urlDecode (s :: signature))
    let headerValue ← attempt (platform.parseIjson headerRaw)
    let claimsValue ← attempt (platform.parseIjson claimsRaw)
    match headerValue, claimsValue with
    | .dict header, .dict claims =>
      if ¬(∀ field ∈ header.map Prod.fst, field ∈ headerFields) ∨ ¬∀ field ∈ headerFields, field ∈ header.map Prod.fst then
        reject "invalid_header" "DPoP JOSE header members are closed"
      else if ¬(∀ field ∈ claims.map Prod.fst, field ∈ claimFields) ∨
          ¬∀ field ∈ requiredClaims, field ∈ claims.map Prod.fst then
        reject "invalid_claims" "DPoP claims are missing or not allowed"
      else if ¬(JsonValue.get header "typ").isText "dpop+jwt".codePoints ∨
          ¬(JsonValue.get header "alg").isText "ES256".codePoints then
        reject "unsupported_proof" "only typ=dpop+jwt and ES256 are allowed"
      else
        match JsonValue.get header "jwk" with
        | .dict jwk =>
          if ¬(JsonValue.get jwk "kty").isText "EC".codePoints ∨ ¬(JsonValue.get jwk "crv").isText "P-256".codePoints ∨
              "d".codePoints ∈ jwk.map Prod.fst then
            reject "invalid_jwk" "DPoP requires a public P-256 EC JWK"
          else do
            verifySignature jwtDecode proof jwk
            return ⟨claims, jwk⟩
        | _ => reject "invalid_jwk" "DPoP requires an embedded public JWK"
    | _, _ => reject "malformed_proof" "JOSE header and claims must be objects"
  | _ => reject "malformed_proof" "DPoP proof must be a compact JWS"

/-- The claims of a proof once they have the right types. -/
structure CheckedClaims where
  jti : Text
  iat : Int
  nonce : Option Text

/-- The two spellings of the target agree; both must be absolute HTTP URIs. -/
def checkTarget (htu targetUri : Text) : Except Refusal Unit :=
  match normalizeHtu platform urlsplit htu, normalizeHtu platform urlsplit targetUri with
  | .ok claimed, .ok requested =>
    if claimed ≠ requested then reject "uri_mismatch" "htu does not match the request target" else .ok ()
  | .error (.valueError _), _ | .ok _, .error (.valueError _) =>
    reject "uri_mismatch" "htu or request target is not an absolute HTTP URI"
  | .error .unicodeError, _ | .ok _, .error .unicodeError =>
    reject "uri_mismatch" "htu or request target is not an absolute HTTP URI"
  | .error error, _ => .error (.raised error)
  | .ok _, .error error => .error (.raised error)

/-- The time window; `or` does not evaluate its second operand when the first holds. -/
def checkWindow (iat now : Int) : Except Refusal Unit := do
  let issuedAt ← attempt (fromTimestamp iat)
  let latest ← attempt (datetimeAdd now verifier.clockSkew)
  if latest < issuedAt then reject "stale_proof" "iat is outside the accepted time window"
  else
    let oldest ← attempt (datetimeSub now verifier.maxAge)
    let earliest ← attempt (datetimeSub oldest verifier.clockSkew)
    if issuedAt < earliest then reject "stale_proof" "iat is outside the accepted time window" else .ok ()

def checkAccessToken (ath : JsonValue) : Option Text → Except Refusal Unit
  | some accessToken =>
    match ath with
    | .str found => do
      let expected ← attempt (platform.accessTokenHash accessToken)
      if found ≠ expected then reject "ath_mismatch" "ath does not match the access token" else .ok ()
    | _ => reject "ath_mismatch" "ath does not match the access token"
  | none =>
    match ath with
    | .null => .ok ()
    | _ => reject "unexpected_ath" "ath is not allowed without an access token"

def checkNonce (nonce : JsonValue) (expected : Option Text) : Except Refusal (Option Text) :=
  if expected.any fun text => !nonce.isText text then
    reject "nonce_mismatch" "nonce does not match the expected value"
  else
    match nonce with
    | .null => .ok none
    | .str found => .ok (some found)
    | _ => reject "invalid_nonce" "nonce must be a string"

/-- `_verify_context`, with what the caller reads from the claims afterwards. -/
def verifyContext (claims : List (Text × JsonValue)) (call : DPoPCall) : Except Refusal CheckedClaims :=
  match JsonValue.get claims "jti" with
  | .str jti =>
    if !isUuid4 jti then reject "invalid_jti" "jti must be a canonical UUID-v4"
    else if ¬(JsonValue.get claims "htm").isText (platform.upper call.method) then
      reject "method_mismatch" "htm does not match the request method"
    else
      match JsonValue.get claims "htu" with
      | .str htu => do
        checkTarget platform urlsplit htu call.targetUri
        match JsonValue.get claims "iat" with
        | .int iat => do
          checkWindow verifier iat call.checkedAt
          checkAccessToken platform (JsonValue.get claims "ath") call.accessToken
          let nonce ← checkNonce (JsonValue.get claims "nonce") call.expectedNonce
          return ⟨jti, iat, nonce⟩
        | _ => reject "invalid_iat" "iat must be an integer NumericDate"
      | _ => reject "uri_mismatch" "htu must be a URI string"
  | _ => reject "invalid_jti" "jti must be a canonical UUID-v4"

/-- What a call that passes all checks is about to reserve. -/
structure Candidate where
  checked : CheckedClaims
  issuedAt : Int
  thumbprint : Text

def candidate (call : DPoPCall) : Except Refusal Candidate := do
  let signed ← decodeProof platform jwtDecode call.proof
  let checked ← verifyContext platform urlsplit verifier signed.claims call
  let issuedAt ← attempt (fromTimestamp checked.iat)
  let thumbprint ← attempt (platform.jwkThumbprint signed.jwk)
  return ⟨checked, issuedAt, thumbprint⟩

/-- The identity under which a proof is remembered. -/
def replayIdentity (thumbprint jti : Text) : ReplayIdentity := ⟨"dpop".codePoints, thumbprint ++ [0x3a] ++ jti⟩

/-- The exceptions that `verify` turns into a rejection. -/
def malformed : PyError → Bool
  | .valueError _ | .overflowError _ | .unicodeError => true
  | .raised name => name = "TypeError" || name = "KeyError"
  | .runtimeError _ | .lookupError _ => false

def handled (error : PyError) : Except PyError (Except RejectedProof VerifiedProof) :=
  if malformed error then .ok (.error ⟨"malformed_proof", "DPoP proof is malformed"⟩) else .error error

def verify (call : DPoPCall) (store : ReplayStore) : Except PyError (Except RejectedProof VerifiedProof) × ReplayStore :=
  match candidate platform urlsplit jwtDecode verifier call with
  | .error (.rejected proof) => (.ok (.error proof), store)
  | .error (.raised error) => (handled error, store)
  | .ok found =>
    match store.reserve (replayIdentity found.thumbprint found.checked.jti) call.reservedAt verifier.replayTtl with
    | (.error error, store) => (handled error, store)
    | (.ok (.accepted _), store) =>
      (.ok (.ok
        { mechanism := "dpop"
          keyId := found.thumbprint
          proofId := found.checked.jti
          issuedAt := found.issuedAt
          expiresAt := none
          attributes := Dict.empty.set "nonce" found.checked.nonce }), store)
    | (.ok _, store) =>
      (.ok (.error ⟨"replayed_proof", "DPoP proof was already used or cannot be reserved"⟩), store)

end

end DPoPVerifier

end Pytitect
