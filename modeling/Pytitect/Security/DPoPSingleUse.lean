import Pytitect.Security.DPoP

namespace Pytitect

namespace DPoPVerifier
open HttpMessageSignatureVerifier (attempt_ok isAccepted isAccepted_iff)
variable {platform : Platform} {urlsplit : Text → Except PyError SplitResult}
  {jwtDecode : Text → List (Text × JsonValue) → Except PyError Unit} {verifier : DPoPVerifier} {call other : DPoPCall}
  {store : ReplayStore}

theorem checkWindow_ok {iat now : Int} (passed : checkWindow verifier iat now = .ok ()) :
    iat * 1000000 ≤ now + verifier.clockSkew ∧ now - verifier.maxAge - verifier.clockSkew ≤ iat * 1000000 := by
  unfold checkWindow at passed
  obtain ⟨issuedAt, issued, passed⟩ := bind_ok passed
  obtain ⟨latest, late, passed⟩ := bind_ok passed
  have issuedAtIs := fromTimestamp_ok (attempt_ok issued)
  have latestIs := datetimeAdd_ok (attempt_ok late)
  split at passed
  · cases passed
  obtain ⟨oldest, old, passed⟩ := bind_ok passed
  obtain ⟨earliest, early, passed⟩ := bind_ok passed
  have oldestIs := datetimeSub_ok (attempt_ok old)
  have earliestIs := datetimeSub_ok (attempt_ok early)
  split at passed
  · cases passed
  constructor <;> omega

/-- The id and the instant are those of the claims, and the instant lies in the window. -/
theorem verifyContext_ok {claims : List (Text × JsonValue)} {checked : CheckedClaims}
    (passed : verifyContext platform urlsplit verifier claims call = .ok checked) :
    JsonValue.get claims "jti" = .str checked.jti ∧ JsonValue.get claims "iat" = .int checked.iat ∧
      checkWindow verifier checked.iat call.checkedAt = .ok () := by
  unfold verifyContext at passed
  split at passed
  · rename_i jti foundJti
    split at passed
    · cases passed
    split at passed
    · cases passed
    split at passed
    · obtain ⟨-, -, passed⟩ := bind_ok passed
      split at passed
      · rename_i iat foundIat
        obtain ⟨⟨⟩, window, passed⟩ := bind_ok passed
        obtain ⟨-, -, passed⟩ := bind_ok passed
        obtain ⟨nonce, -, passed⟩ := bind_ok passed
        cases passed
        exact ⟨foundJti, foundIat, window⟩
      · cases passed
    · cases passed
  · cases passed

/-- What a candidate rests on: the claims and the key that its proof decodes to. -/
theorem candidate_ok {found : Candidate} (passed : candidate platform urlsplit jwtDecode verifier call = .ok found) :
    ∃ signed, decodeProof platform jwtDecode call.proof = .ok signed ∧
      JsonValue.get signed.claims "jti" = .str found.checked.jti ∧
      JsonValue.get signed.claims "iat" = .int found.checked.iat ∧
      platform.jwkThumbprint signed.jwk = .ok found.thumbprint ∧
      checkWindow verifier found.checked.iat call.checkedAt = .ok () := by
  unfold candidate at passed
  obtain ⟨signed, decoded, passed⟩ := bind_ok passed
  obtain ⟨checked, context, passed⟩ := bind_ok passed
  obtain ⟨issuedAt, -, passed⟩ := bind_ok passed
  obtain ⟨thumbprint, printed, passed⟩ := bind_ok passed
  cases passed
  obtain ⟨foundJti, foundIat, window⟩ := verifyContext_ok context
  exact ⟨signed, decoded, foundJti, foundIat, attempt_ok printed, window⟩

/-- Two candidates of one proof have one id, one key and one instant. -/
theorem candidates_agree {found again : Candidate} (sameProof : call.proof = other.proof)
    (passed : candidate platform urlsplit jwtDecode verifier call = .ok found)
    (passedAgain : candidate platform urlsplit jwtDecode verifier other = .ok again) :
    found.checked.jti = again.checked.jti ∧ found.checked.iat = again.checked.iat ∧ found.thumbprint = again.thumbprint := by
  obtain ⟨signed, decoded, jti, iat, printed, -⟩ := candidate_ok passed
  obtain ⟨signed', decoded', jti', iat', printed', -⟩ := candidate_ok passedAgain
  rw [← sameProof] at decoded'
  cases Except.ok.inj (decoded.symm.trans decoded')
  refine ⟨?_, ?_, ?_⟩
  · exact JsonValue.str.inj (jti.symm.trans jti')
  · exact JsonValue.int.inj (iat.symm.trans iat')
  · exact Except.ok.inj (printed.symm.trans printed')

/-- The identity that an accepted proof has reserved. -/
def reserved : Except PyError (Except RejectedProof VerifiedProof) → Option ReplayIdentity
  | .ok (.ok proof) => some (replayIdentity proof.keyId proof.proofId)
  | _ => none

theorem handled_reserved (error : PyError) : reserved (handled error) = none := by
  unfold handled
  split <;> rfl

/-- An answer reserves an identity only for a candidate that the store accepts. -/
theorem verify_reserved {identity : ReplayIdentity}
    (accepted : reserved (verify platform urlsplit jwtDecode verifier call store).1 = some identity) :
    ∃ found expiresAt, candidate platform urlsplit jwtDecode verifier call = .ok found ∧
      identity = replayIdentity found.thumbprint found.checked.jti ∧
      (store.reserve identity call.reservedAt verifier.replayTtl).1 = .ok (.accepted expiresAt) ∧
      (verify platform urlsplit jwtDecode verifier call store).2 =
        (store.reserve identity call.reservedAt verifier.replayTtl).2 := by
  unfold verify at accepted ⊢
  split at accepted
  · cases accepted
  · rw [handled_reserved] at accepted
    cases accepted
  · rename_i found passed
    refine ⟨found, ?_⟩
    rcases run : store.reserve (replayIdentity found.thumbprint found.checked.jti) call.reservedAt verifier.replayTtl with
      ⟨answer, after⟩
    rw [run] at accepted
    rcases answer with error | expiresAt | _ | _
    · rw [handled_reserved] at accepted
      cases accepted
    · cases accepted
      rw [passed]
      exact ⟨expiresAt, rfl, rfl, by rw [run], by simp [run]⟩
    · cases accepted
    · cases accepted

/-- A call leaves the store alone or reserves in it. -/
theorem verify_store (platform : Platform) (urlsplit : Text → Except PyError SplitResult)
    (jwtDecode : Text → List (Text × JsonValue) → Except PyError Unit) (verifier : DPoPVerifier) (call : DPoPCall)
    (store : ReplayStore) :
    (verify platform urlsplit jwtDecode verifier call store).2 = store ∨
      ∃ identity, (verify platform urlsplit jwtDecode verifier call store).2 =
        (store.reserve identity call.reservedAt verifier.replayTtl).2 := by
  unfold verify
  split
  · exact Or.inl rfl
  · exact Or.inl rfl
  · rename_i found _
    refine Or.inr ⟨replayIdentity found.thumbprint found.checked.jti, ?_⟩
    rcases store.reserve (replayIdentity found.thumbprint found.checked.jti) call.reservedAt verifier.replayTtl with
      ⟨error | _ | _ | _, after⟩ <;> rfl

variable (platform urlsplit jwtDecode verifier) in
/-- A call is answered against the replay store. -/
def answerCall (store : ReplayStore) (call : DPoPCall) : Except PyError (Except RejectedProof VerifiedProof) × ReplayStore :=
  verify platform urlsplit jwtDecode verifier call store

theorem guards : ReplayStore.Guards (answerCall platform urlsplit jwtDecode verifier) DPoPCall.reservedAt reserved
    verifier.replayTtl := by
  refine .of_reserve (fun store call => verify_store platform urlsplit jwtDecode verifier call store) ?_
  intro store call identity accepted
  obtain ⟨-, expiresAt, -, -, granted, same⟩ := verify_reserved accepted
  exact ⟨expiresAt, granted, same⟩

/-- The readings of the clock, in their order, never decrease. -/
def Monotone (_ : ReplayStore) (past : List (DPoPCall × Except PyError (Except RejectedProof VerifiedProof)))
    (call : DPoPCall) : Prop :=
  (∀ earlier ∈ past, earlier.1.reservedAt ≤ call.checkedAt) ∧ call.checkedAt ≤ call.reservedAt

/-- A reservation outlasts the time during which a proof can be accepted and the
time that a call takes from the window check to the reservation. -/
def Outlasts (verifier : DPoPVerifier) (call : DPoPCall) : Prop :=
  verifier.maxAge + 2 * verifier.clockSkew + (call.reservedAt - call.checkedAt) < verifier.replayTtl

/-- The proof was accepted. -/
def Accepts (proof : Text) (entry : DPoPCall × Except PyError (Except RejectedProof VerifiedProof)) : Prop :=
  entry.1.proof = proof ∧ ∃ verified, entry.2 = .ok (.ok verified)

/-- A proof accepted at the reading of one call can no longer be accepted at a
call whose reservation would come after the first one has run out. -/
theorem window_over {found again : Candidate} (sameProof : call.proof = other.proof)
    (passed : candidate platform urlsplit jwtDecode verifier call = .ok found)
    (passedAgain : candidate platform urlsplit jwtDecode verifier other = .ok again) (outlasts : Outlasts verifier other)
    (ordered : call.checkedAt ≤ call.reservedAt) : other.reservedAt < call.reservedAt + verifier.replayTtl := by
  obtain ⟨-, sameIat, -⟩ := candidates_agree sameProof passed passedAgain
  obtain ⟨-, -, -, -, -, window⟩ := candidate_ok passed
  obtain ⟨-, -, -, -, -, windowAgain⟩ := candidate_ok passedAgain
  obtain ⟨opened, -⟩ := checkWindow_ok window
  obtain ⟨-, aged⟩ := checkWindow_ok windowAgain
  unfold Outlasts at outlasts
  rw [← sameIat] at aged
  omega

theorem reserved_of_accepted {answer : Except PyError (Except RejectedProof VerifiedProof)}
    (accepted : ∃ verified, answer = .ok (.ok verified)) : ∃ identity, reserved answer = some identity := by
  obtain ⟨verified, rfl⟩ := accepted
  exact ⟨_, rfl⟩

/-- Under a clock that never goes back, a proof is accepted at most once,
provided that at every call the reservation outlasts the time in which a proof
can be accepted. -/
theorem proof_accepted_once {init : ReplayStore}
    {past : List (DPoPCall × Except PyError (Except RejectedProof VerifiedProof))}
    (history : History (answerCall platform urlsplit jwtDecode verifier)
      (fun store past call => Monotone store past call ∧ Outlasts verifier call) init past store) (proof : Text) :
    past.Pairwise fun first second => ¬(Accepts proof first ∧ Accepts proof second) := by
  refine history.pairwise fun past store call run permitted first inPast both => ?_
  obtain ⟨⟨monotone, outlasts⟩, ⟨mine, accepted⟩, ⟨theirs, again⟩⟩ := And.intro permitted both
  obtain ⟨before, earlier, ⟨⟨-, ordered⟩, -⟩, answer⟩ := run.answered inPast
  obtain ⟨identity, held⟩ := reserved_of_accepted accepted
  obtain ⟨identity', heldAgain⟩ := reserved_of_accepted again
  have sameProof : first.1.proof = call.proof := mine.trans theirs.symm
  obtain ⟨found, -, passed, isIdentity, -⟩ := verify_reserved (answer ▸ held)
  obtain ⟨found', -, passed', isIdentity', -⟩ := verify_reserved heldAgain
  obtain ⟨sameJti, -, sameKey⟩ := candidates_agree sameProof passed passed'
  have same : identity' = identity := by rw [isIdentity, isIdentity', sameJti, sameKey]
  have late := guards.apart run (fun event member => Int.le_trans (monotone.1 event member) monotone.2) inPast held (same ▸ heldAgain)
  have soon := window_over sameProof passed passed' outlasts ordered
  omega

/-- A text given in pieces. -/
def pieces (parts : List String) : Text := parts.flatMap String.codePoints

def sampleX : Text := pieces ["bGsYJS8ljhwmQArk", "OxbyvT3v__GLL9TO", "Nwv8bc8Unwg"]

def sampleY : Text := pieces ["qBCVqO31rl2_0SxL", "kWeF5vO93b70Ar_N", "uj-eB5T2lgU"]

def sampleJti : Text := pieces ["0f0e3a52-6d4c-4b", "1e-9a77-3c5d2e1f", "0a9b"]

def sampleKey : List (Text × JsonValue) :=
  [("kty".codePoints, .str "EC".codePoints), ("crv".codePoints, .str "P-256".codePoints),
    ("x".codePoints, .str sampleX), ("y".codePoints, .str sampleY)]

def sampleHeader : List UInt8 :=
  Text.utf8 (pieces ["\x7b\"typ\":", "\"dpop+jwt\",", "\"alg\":\"ES256\",", "\"jwk\":\x7b", "\"kty\":\"EC\",", "\"crv\":\"P-256\","] ++
    pieces ["\"x\":\""] ++ sampleX ++ pieces ["\",\"y\":\""] ++ sampleY ++ pieces ["\"\x7d\x7d"])

def sampleClaims : List UInt8 :=
  Text.utf8 (pieces ["\x7b\"jti\":\""] ++ sampleJti ++
    pieces ["\",\"htm\":\"GET\",", "\"htu\":", "\"https://api.", "example/\",", "\"iat\":1000\x7d"])

/-- A proof for `GET https://api.example/`, issued a thousand seconds into the epoch. -/
def sampleProof : Text :=
  base64urlEncode sampleHeader ++ [0x2e] ++ base64urlEncode sampleClaims ++ [0x2e] ++
    pieces ["8z9-Q_0Q67SuJ0_tJij7IF", "qLdB58phko79WqmBQzTnkR", "1ihgFNorXnyCbVKPmnSRsC", "S2aIpvZoOMoVu6V9x_oA"]

/-- The libraries, as far as the proof needs them. -/
def samplePlatform : Platform where
  loads payload :=
    if payload = sampleHeader then
      .ok (.dict [("typ".codePoints, .str "dpop+jwt".codePoints), ("alg".codePoints, .str "ES256".codePoints),
        ("jwk".codePoints, .dict sampleKey)])
    else if payload = sampleClaims then
      .ok (.dict [("jti".codePoints, .str sampleJti), ("htm".codePoints, .str "GET".codePoints),
        ("htu".codePoints, .str "https://api.example/".codePoints), ("iat".codePoints, .int 1000)])
    else .error (.valueError "Expecting value")
  dumps _ :=
    .ok (Text.utf8 (pieces ["\x7b\"crv\":\"P-256\",", "\"kty\":\"EC\",", "\"x\":\""] ++ sampleX ++ pieces ["\",\"y\":\""] ++ sampleY ++
      pieces ["\"\x7d"]))
  sha256 _ :=
    [129, 181, 40, 51, 53, 87, 165, 93, 12, 27, 220, 6, 59, 49, 115, 135, 112, 124, 41, 246, 206, 81, 132, 144, 158, 144,
      203, 250, 207, 201, 71, 241]
  upper := id
  lower := id

def sampleSplit (_ : Text) : Except PyError SplitResult :=
  .ok ⟨"https".codePoints, some "api.example".codePoints, none, .ok none, "/".codePoints⟩

def sampleCall (now : Int) : DPoPCall :=
  ⟨sampleProof, "GET".codePoints, "https://api.example/".codePoints, none, none, now, now⟩

def sampleVerifier (replayTtl : Int) (positive : 0 < replayTtl) : DPoPVerifier :=
  ⟨300000000, 30000000, replayTtl, ⟨by decide, positive⟩, by decide⟩

/-- The proof is presented, and again two minutes later. -/
def sampleCalls : List DPoPCall := [sampleCall 1000000000, sampleCall 1120000000]

theorem sampleCalls_ordered (store : ReplayStore) (answer : Except PyError (Except RejectedProof VerifiedProof)) :
    Monotone store [(sampleCall 1000000000, answer)] (sampleCall 1120000000) := by
  refine ⟨fun earlier inPast => ?_, le_refl _⟩
  rw [List.mem_singleton.mp inPast]
  show (1000000000 : Int) ≤ 1120000000
  decide

theorem sampleCalls_proof : ∀ call ∈ sampleCalls, ∃ now, call = sampleCall now := by
  simp [sampleCalls]

theorem accepted_twice {proof : Text} {past : List (DPoPCall × Except PyError (Except RejectedProof VerifiedProof))}
    (presented : ∀ entry ∈ past, entry.1.proof = proof)
    (accepted : past.map (fun entry => isAccepted entry.2) = [true, true]) :
    ¬past.Pairwise fun first second => ¬(Accepts proof first ∧ Accepts proof second) := by
  obtain ⟨first, second, rfl⟩ : ∃ first second, past = [first, second] :=
    List.length_eq_two.mp (by simpa using congrArg List.length accepted)
  obtain ⟨one, rest⟩ := List.cons.inj accepted
  have two := (List.cons.inj rest).1
  intro once
  exact List.pairwise_pair.mp once ⟨⟨presented first (by simp), isAccepted_iff.mp one⟩,
    presented second (by simp), isAccepted_iff.mp two⟩

/-- With a reservation of ten minutes the second presentation is refused. -/
theorem second_proof_refused :
    ∃ past store, History (answerCall samplePlatform sampleSplit (fun _ _ => .ok ()) (sampleVerifier 600000000 (by decide)))
        (fun store past call => Monotone store past call ∧ Outlasts (sampleVerifier 600000000 (by decide)) call)
        (.empty 4) past store ∧
      past.map (fun entry => isAccepted entry.2) = [true, false] ∧
      past.Pairwise fun first second => ¬(Accepts sampleProof first ∧ Accepts sampleProof second) := by
  have outlasts : ∀ now, Outlasts (sampleVerifier 600000000 (by decide)) (sampleCall now) := by
    intro now
    simp only [Outlasts, sampleCall, sampleVerifier]
    omega
  have history : History (answerCall samplePlatform sampleSplit (fun _ _ => .ok ()) (sampleVerifier 600000000 (by decide)))
      (fun store past call => Monotone store past call ∧ Outlasts (sampleVerifier 600000000 (by decide)) call) (.empty 4)
      (History.transcript _ _ sampleCalls) (History.after _ _ sampleCalls) :=
    History.ofInputs ⟨⟨⟨by simp, le_refl _⟩, outlasts _⟩, ⟨sampleCalls_ordered _ _, outlasts _⟩, trivial⟩
  exact ⟨_, _, history, by decide +kernel, proof_accepted_once history sampleProof⟩

/-- A reservation of one minute, which the constructor allows, ends while the
proof can still be accepted: the same proof is accepted twice. -/
theorem proof_accepted_twice :
    ¬∀ (verifier : DPoPVerifier) (proof : Text)
      (past : List (DPoPCall × Except PyError (Except RejectedProof VerifiedProof))) (store : ReplayStore),
      History (answerCall samplePlatform sampleSplit (fun _ _ => .ok ()) verifier) Monotone (.empty 4) past store →
      past.Pairwise fun first second => ¬(Accepts proof first ∧ Accepts proof second) := by
  intro always
  have once := always (sampleVerifier 60000000 (by decide)) sampleProof
    (History.transcript _ _ sampleCalls) (History.after _ _ sampleCalls)
    (History.ofInputs ⟨⟨by simp, le_refl _⟩, sampleCalls_ordered _ _, trivial⟩)
  refine accepted_twice (fun event member => ?_) ?_ once
  · obtain ⟨now, same⟩ := sampleCalls_proof _ (History.mem_transcript member)
    rw [same]
    rfl
  · decide +kernel

end DPoPVerifier

end Pytitect
