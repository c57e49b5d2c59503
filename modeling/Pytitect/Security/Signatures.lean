import Pytitect.Security.Replay

namespace Pytitect

structure SignedRequest where
  method : Text
  targetUri : Text
  headers : Dict Text Text
  body : List UInt8
  deriving DecidableEq

/-- A parameter of a signature, by its Python type. -/
inductive ParameterValue
  | str (value : Text)
  | int (value : Int)
  | bool (value : Bool)
  | other (value : Text)
  deriving DecidableEq

structure BackendVerification where
  label : Text
  algorithm : Text
  coveredComponents : List Text
  parameters : Dict Text ParameterValue
  deriving DecidableEq

structure VerifiedProof where
  mechanism : String
  keyId : Text
  proofId : Text
  issuedAt : Int
  expiresAt : Option Int
  attributes : Dict String (Option Text)
  deriving DecidableEq

structure RejectedProof where
  code : String
  detail : String
  deriving DecidableEq

/-- `HttpMessageSignatureVerifier`. Its backend, which also looks up the keys,
and its content digest verifier are the caller's. -/
structure HttpMessageSignatureVerifier where
  requiredComponents : List Text
  expectedTag : Text
  allowedAlgorithms : List Text
  backend : SignedRequest → List Text → Text → Except PyError BackendVerification
  maxAge : Int
  maxLifetime : Int
  clockSkew : Int
  replayTtl : Int
  expectedNonce : Option Text
  requireContentDigest : Bool
  contentDigest : List UInt8 → Option Text → Except RejectedProof Unit
  named : requiredComponents ≠ [] ∧ expectedTag ≠ [] ∧ allowedAlgorithms ≠ []
  positive : 0 < maxAge ∧ 0 < maxLifetime ∧ 0 ≤ clockSkew ∧ 0 < replayTtl

/-- Why a request is not accepted: it is rejected, or the verification itself fails. -/
inductive Refusal
  | rejected (proof : RejectedProof)
  | raised (error : PyError)
  deriving DecidableEq

/-- `datetime.fromtimestamp(seconds, UTC)`. -/
def fromTimestamp (seconds : Int) : Except PyError Int :=
  if minDatetime ≤ seconds * 1000000 ∧ seconds * 1000000 ≤ maxDatetime then .ok (seconds * 1000000)
  else .error (.valueError "year is out of range")

theorem fromTimestamp_ok {seconds instant : Int} (fits : fromTimestamp seconds = .ok instant) :
    instant = seconds * 1000000 := by
  unfold fromTimestamp at fits
  split at fits
  · exact (Except.ok.inj fits).symm
  · cases fits

/-- The parameters of a signature once they have the right types. -/
structure SignatureParameters where
  keyId : Text
  created : Int
  expires : Int
  nonce : Text
  deriving DecidableEq

namespace HttpMessageSignatureVerifier

def reject {α : Type} (code detail : String) : Except Refusal α := .error (.rejected ⟨code, detail⟩)

/-- Let an exception out. -/
def attempt {α : Type} : Except PyError α → Except Refusal α
  | .ok value => .ok value
  | .error error => .error (.raised error)

theorem attempt_ok {α : Type} {result : Except PyError α} {value : α} (passed : attempt result = .ok value) :
    result = .ok value := by
  cases result with
  | ok found => exact congrArg _ (Except.ok.inj passed)
  | error error => cases passed

def isAccepted : Except PyError (Except RejectedProof VerifiedProof) → Bool
  | .ok (.ok _) => true
  | _ => false

theorem isAccepted_iff {answer : Except PyError (Except RejectedProof VerifiedProof)} :
    isAccepted answer = true ↔ ∃ proof, answer = .ok (.ok proof) := by
  rcases answer with error | proof | proof <;> simp [isAccepted]

section
variable (lower : Text → Text) (verifier : HttpMessageSignatureVerifier)

/-- The headers under their lower-case names; of equal names the last wins. -/
def normalized (request : SignedRequest) : SignedRequest :=
  { request with
    headers := request.headers.items.foldl (fun headers item => headers.set (lower item.1) item.2) .empty }

/-- The checks before the backend is asked. The answer is the text of the
`Signature` header. -/
def presented (request : SignedRequest) : Except Refusal Text :=
  match (normalized lower request).headers.get? "signature-input".codePoints,
      (normalized lower request).headers.get? "signature".codePoints with
  | some _, some signature =>
    if verifier.requireContentDigest then
      match verifier.contentDigest request.body
          ((normalized lower request).headers.get? "content-digest".codePoints) with
      | .error proof => .error (.rejected proof)
      | .ok () =>
        if "content-digest".codePoints ∉ verifier.requiredComponents then
          reject "unsigned_digest" "content-digest must be a required covered component"
        else .ok signature
    else .ok signature
  | _, _ => reject "missing_signature" "Signature-Input and Signature are required"

/-- The backend's own failures are rejections, save a `RuntimeError`. -/
def verifyBackend (request : SignedRequest) : Except Refusal BackendVerification :=
  match verifier.backend (normalized lower request) verifier.allowedAlgorithms verifier.expectedTag with
  | .ok verified =>
    if verified.algorithm ∉ verifier.allowedAlgorithms then
      reject "algorithm_rejected" "signature algorithm is not allowed"
    else if ¬∀ component ∈ verifier.requiredComponents, component ∈ verified.coveredComponents then
      reject "missing_components" "signature omits required components"
    else .ok verified
  | .error (.runtimeError message) => .error (.raised (.runtimeError message))
  | .error _ => reject "invalid_signature" "HTTP Message Signature verification failed"

/-- The parameters, checked in the order of the source. -/
def checkParameters (params : Dict Text ParameterValue) : Except Refusal SignatureParameters :=
  match params.get? "keyid".codePoints with
  | some (.str (k :: keyId)) =>
    match params.get? "created".codePoints with
    | some (.int created) =>
      match params.get? "expires".codePoints with
      | some (.int expires) =>
        if params.get? "tag".codePoints ≠ some (.str verifier.expectedTag) then
          reject "tag_mismatch" "signature tag does not match"
        else
          match params.get? "nonce".codePoints with
          | some (.str (n :: nonce)) =>
            if verifier.expectedNonce.any (· ≠ n :: nonce) then
              reject "nonce_mismatch" "signature nonce does not match"
            else .ok ⟨k :: keyId, created, expires, n :: nonce⟩
          | _ => reject "missing_nonce" "a non-empty signature nonce is required"
      | _ => reject "missing_expires" "integer expires parameter is required"
    | _ => reject "missing_created" "integer created parameter is required"
  | _ => reject "missing_keyid" "signature keyid is required"

/-- The time window; `or` does not evaluate its second operand when the first holds. -/
def checkTimes (params : SignatureParameters) (now : Int) : Except Refusal (Int × Int) := do
  let issuedAt ← attempt (fromTimestamp params.created)
  let expiresAt ← attempt (fromTimestamp params.expires)
  let latest ← attempt (datetimeAdd now verifier.clockSkew)
  if latest < issuedAt then reject "stale_signature" "created is outside the accepted time window"
  else
    let oldest ← attempt (datetimeSub now verifier.maxAge)
    let earliest ← attempt (datetimeSub oldest verifier.clockSkew)
    if issuedAt < earliest then reject "stale_signature" "created is outside the accepted time window"
    else
      let ended ← attempt (datetimeSub now verifier.clockSkew)
      if expiresAt < ended ∨ expiresAt ≤ issuedAt then reject "expired_signature" "expires is invalid or in the past"
      else if verifier.maxLifetime < expiresAt - issuedAt then
        reject "lifetime_exceeded" "signature lifetime exceeds policy"
      else .ok (issuedAt, expiresAt)

/-- What is hashed into the id of a proof. -/
def proofText (label keyId nonce signature : Text) : Text :=
  label ++ [0] ++ keyId ++ [0] ++ nonce ++ [0] ++ signature

/-- What a request that passes all checks is about to reserve. -/
structure Candidate where
  verified : BackendVerification
  params : SignatureParameters
  issuedAt : Int
  expiresAt : Int
  preimage : List UInt8
  deriving DecidableEq

def candidate (request : SignedRequest) (now : Int) : Except Refusal Candidate := do
  let signature ← presented lower verifier request
  let verified ← verifyBackend lower verifier request
  let params ← checkParameters verifier verified.parameters
  let (issuedAt, expiresAt) ← checkTimes verifier params now
  match Text.encode (proofText verified.label params.keyId params.nonce signature) with
  | none => .error (.raised .unicodeError)
  | some preimage => .ok ⟨verified, params, issuedAt, expiresAt, preimage⟩

/-- The identity under which a proof is remembered; `sha256` is the hexadecimal digest. -/
def replayIdentity (sha256 : List UInt8 → Text) (preimage : List UInt8) : ReplayIdentity :=
  ⟨"http-message-signature".codePoints, sha256 preimage⟩

/-- `verify` at the instant the clock shows. -/
def verify (sha256 : List UInt8 → Text) (request : SignedRequest) (now : Int) (store : ReplayStore) :
    Except PyError (Except RejectedProof VerifiedProof) × ReplayStore :=
  match candidate lower verifier request now with
  | .error (.rejected proof) => (.ok (.error proof), store)
  | .error (.raised error) => (.error error, store)
  | .ok found =>
    match store.reserve (replayIdentity sha256 found.preimage) now verifier.replayTtl with
    | (.error error, store) => (.error error, store)
    | (.ok (.accepted _), store) =>
      (.ok (.ok
        { mechanism := "http-message-signature"
          keyId := found.params.keyId
          proofId := sha256 found.preimage
          issuedAt := found.issuedAt
          expiresAt := some found.expiresAt
          attributes := (Dict.empty.set "algorithm" (some found.verified.algorithm)).set "tag" (some verifier.expectedTag) }), store)
    | (.ok _, store) =>
      (.ok (.error ⟨"replayed_signature", "signature was already used or cannot be reserved"⟩), store)

end

end HttpMessageSignatureVerifier

end Pytitect
