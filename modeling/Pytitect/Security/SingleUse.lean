import Pytitect.Security.Signatures

namespace Pytitect

namespace HttpMessageSignatureVerifier
variable {S : Type} (lower : Text → Text) (sha256 : List UInt8 → Text) (verifier : HttpMessageSignatureVerifier)
  (statement : SignedRequest → S)

/-- A call of `verify` with what the clock shows. -/
structure SignatureCall where
  request : SignedRequest
  now : Int
  deriving DecidableEq

/-- A request is answered against the replay store. -/
def answerCall (store : ReplayStore) (call : SignatureCall) :
    Except PyError (Except RejectedProof VerifiedProof) × ReplayStore :=
  verify lower verifier sha256 call.request call.now store

/-- The clock never goes back. -/
def Monotone (_ : ReplayStore) (past : List (SignatureCall × Except PyError (Except RejectedProof VerifiedProof)))
    (call : SignatureCall) : Prop :=
  ∀ earlier ∈ past, earlier.1.now ≤ call.now

/-- The backend accepts every presentation of a signed statement or none, and
reports the same algorithm, components and parameters for all of them; only the
label may vary. -/
def Presents : Prop :=
  ∀ request other, statement request = statement other → ∀ verified,
    verifier.backend request verifier.allowedAlgorithms verifier.expectedTag = .ok verified →
    ∃ label, verifier.backend other verifier.allowedAlgorithms verifier.expectedTag = .ok { verified with label }

/-- The request carries the statement. -/
def Carries (signed : S) (request : SignedRequest) : Prop := statement (normalized lower request) = signed

/-- A call that presented the statement and was accepted. -/
def Accepts (signed : S) (entry : SignatureCall × Except PyError (Except RejectedProof VerifiedProof)) : Prop :=
  Carries lower statement signed entry.1.request ∧ ∃ proof, entry.2 = .ok (.ok proof)

/-- All presentations of the statement in the run have one `Signature` header
text, and the backend finds one label in them. -/
def OneSpelling (signed : S)
    (past : List (SignatureCall × Except PyError (Except RejectedProof VerifiedProof))) : Prop :=
  ∀ first ∈ past, ∀ second ∈ past, Carries lower statement signed first.1.request →
    Carries lower statement signed second.1.request →
    (normalized lower first.1.request).headers.get? "signature".codePoints =
        (normalized lower second.1.request).headers.get? "signature".codePoints ∧
      ∀ one two,
        verifier.backend (normalized lower first.1.request) verifier.allowedAlgorithms verifier.expectedTag = .ok one →
        verifier.backend (normalized lower second.1.request) verifier.allowedAlgorithms verifier.expectedTag = .ok two →
        one.label = two.label

/-- A reservation outlasts the time during which the statement can be accepted. -/
def Outlasts (signed : S) : Prop :=
  ∀ request verified created expires, statement request = signed →
    verifier.backend request verifier.allowedAlgorithms verifier.expectedTag = .ok verified →
    verified.parameters.get? "created".codePoints = some (.int created) →
    verified.parameters.get? "expires".codePoints = some (.int expires) →
    min verifier.maxAge ((expires - created) * 1000000) + 2 * verifier.clockSkew < verifier.replayTtl

variable {lower sha256 verifier statement} {request : SignedRequest} {now : Int} {store : ReplayStore}

/-- The time window an accepted signature lies in. -/
theorem checkTimes_window {params : SignatureParameters} {times : Int × Int}
    (passed : checkTimes verifier params now = .ok times) :
    params.created * 1000000 ≤ now + verifier.clockSkew ∧
      now - verifier.maxAge - verifier.clockSkew ≤ params.created * 1000000 ∧
      now - verifier.clockSkew ≤ params.expires * 1000000 := by
  unfold checkTimes at passed
  obtain ⟨issuedAt, issued, passed⟩ := bind_ok passed
  obtain ⟨expiresAt, expires, passed⟩ := bind_ok passed
  obtain ⟨latest, late, passed⟩ := bind_ok passed
  have issuedAtIs := fromTimestamp_ok (attempt_ok issued)
  have expiresAtIs := fromTimestamp_ok (attempt_ok expires)
  have latestIs := datetimeAdd_ok (attempt_ok late)
  split at passed
  · cases passed
  obtain ⟨oldest, old, passed⟩ := bind_ok passed
  obtain ⟨earliest, early, passed⟩ := bind_ok passed
  have oldestIs := datetimeSub_ok (attempt_ok old)
  have earliestIs := datetimeSub_ok (attempt_ok early)
  split at passed
  · cases passed
  obtain ⟨ended, end_, passed⟩ := bind_ok passed
  have endedIs := datetimeSub_ok (attempt_ok end_)
  split at passed
  · cases passed
  refine ⟨?_, ?_, ?_⟩ <;> omega

/-- The checked parameters are those the backend reported. -/
theorem checkParameters_reported {reported : Dict Text ParameterValue} {params : SignatureParameters}
    (passed : checkParameters verifier reported = .ok params) :
    reported.get? "created".codePoints = some (.int params.created) ∧
      reported.get? "expires".codePoints = some (.int params.expires) := by
  unfold checkParameters at passed
  split at passed
  · split at passed
    · rename_i created foundCreated
      split at passed
      · rename_i expires foundExpires
        split at passed
        · cases passed
        split at passed
        · split at passed
          · cases passed
          · cases passed
            exact ⟨foundCreated, foundExpires⟩
        · cases passed
      · cases passed
    · cases passed
  · cases passed

/-- What an accepted candidate rests on. -/
structure Grounds (lower : Text → Text) (verifier : HttpMessageSignatureVerifier) (request : SignedRequest) (now : Int)
    (found : Candidate) : Prop where
  backend : verifier.backend (normalized lower request) verifier.allowedAlgorithms verifier.expectedTag =
    .ok found.verified
  params : checkParameters verifier found.verified.parameters = .ok found.params
  times : ∃ times, checkTimes verifier found.params now = .ok times
  preimage : ∃ signature, (normalized lower request).headers.get? "signature".codePoints = some signature ∧
    Text.encode (proofText found.verified.label found.params.keyId found.params.nonce signature) = some found.preimage

theorem presented_signature {signature : Text} (passed : presented lower verifier request = .ok signature) :
    (normalized lower request).headers.get? "signature".codePoints = some signature := by
  unfold presented at passed
  split at passed
  · rename_i found
    split at passed
    · split at passed
      · cases passed
      split at passed
      · cases passed
      · exact Except.ok.inj passed ▸ found
    · exact Except.ok.inj passed ▸ found
  · cases passed

theorem verifyBackend_ok {verified : BackendVerification} (passed : verifyBackend lower verifier request = .ok verified) :
    verifier.backend (normalized lower request) verifier.allowedAlgorithms verifier.expectedTag = .ok verified := by
  unfold verifyBackend at passed
  split at passed
  · rename_i found answer
    split at passed
    · cases passed
    split at passed
    · cases passed
    · rw [answer, Except.ok.inj passed]
  · cases passed
  · cases passed

theorem candidate_grounds {found : Candidate} (passed : candidate lower verifier request now = .ok found) :
    Grounds lower verifier request now found := by
  unfold candidate at passed
  obtain ⟨signature, presented, passed⟩ := bind_ok passed
  obtain ⟨verified, backend, passed⟩ := bind_ok passed
  obtain ⟨params, checked, passed⟩ := bind_ok passed
  obtain ⟨times, window, passed⟩ := bind_ok passed
  dsimp only at passed
  split at passed
  · cases passed
  · rename_i preimage encoded
    cases passed
    exact ⟨verifyBackend_ok backend, checked, ⟨times, window⟩, signature, presented_signature presented, encoded⟩

/-- The identity that an accepted request has reserved. -/
def reserved : Except PyError (Except RejectedProof VerifiedProof) → Option ReplayIdentity
  | .ok (.ok proof) => some ⟨"http-message-signature".codePoints, proof.proofId⟩
  | _ => none

theorem reserved_of_accepted {answer : Except PyError (Except RejectedProof VerifiedProof)}
    (accepted : ∃ proof, answer = .ok (.ok proof)) : ∃ identity, reserved answer = some identity := by
  obtain ⟨proof, rfl⟩ := accepted
  exact ⟨_, rfl⟩

/-- An answer reserves an identity only for a candidate that the store accepts. -/
theorem verify_reserved {identity : ReplayIdentity}
    (accepted : reserved (verify lower verifier sha256 request now store).1 = some identity) :
    ∃ found expiresAt, candidate lower verifier request now = .ok found ∧ identity = replayIdentity sha256 found.preimage ∧
      (store.reserve identity now verifier.replayTtl).1 = .ok (.accepted expiresAt) ∧
      (verify lower verifier sha256 request now store).2 = (store.reserve identity now verifier.replayTtl).2 := by
  unfold verify at accepted ⊢
  split at accepted
  · cases accepted
  · cases accepted
  · rename_i found passed
    refine ⟨found, ?_⟩
    rcases run : store.reserve (replayIdentity sha256 found.preimage) now verifier.replayTtl with ⟨answer, after⟩
    rw [run] at accepted
    rcases answer with error | expiresAt | _ | _
    · cases accepted
    · cases accepted
      rw [passed]
      refine ⟨expiresAt, rfl, rfl, ?_, ?_⟩
      · rw [← replayIdentity, run]
      · rw [← replayIdentity, run]
    · cases accepted
    · cases accepted

/-- A call leaves the store alone or reserves in it. -/
theorem verify_store (lower : Text → Text) (sha256 : List UInt8 → Text) (verifier : HttpMessageSignatureVerifier)
    (request : SignedRequest) (now : Int) (store : ReplayStore) :
    (verify lower verifier sha256 request now store).2 = store ∨
      ∃ identity, (verify lower verifier sha256 request now store).2 = (store.reserve identity now verifier.replayTtl).2 := by
  unfold verify
  split
  · exact Or.inl rfl
  · exact Or.inl rfl
  · rename_i found _
    refine Or.inr ⟨replayIdentity sha256 found.preimage, ?_⟩
    rcases store.reserve (replayIdentity sha256 found.preimage) now verifier.replayTtl with ⟨error | _ | _ | _, after⟩ <;> rfl

theorem guards : ReplayStore.Guards (answerCall lower sha256 verifier) SignatureCall.now reserved verifier.replayTtl := by
  refine .of_reserve (fun store call => verify_store lower sha256 verifier call.request call.now store) ?_
  intro store call identity accepted
  obtain ⟨-, expiresAt, -, -, granted, same⟩ := verify_reserved accepted
  exact ⟨expiresAt, granted, same⟩

/-- Two candidates for one statement, spelled in one way, are reserved under one identity. -/
theorem candidates_agree {signed : S} {first second : SignatureCall} {found other : Candidate}
    (presents : Presents verifier statement) (mine : Carries lower statement signed first.request)
    (theirs : Carries lower statement signed second.request)
    (header : (normalized lower first.request).headers.get? "signature".codePoints =
      (normalized lower second.request).headers.get? "signature".codePoints)
    (label : found.verified.label = other.verified.label)
    (one : Grounds lower verifier first.request first.now found)
    (two : Grounds lower verifier second.request second.now other) :
    other.params = found.params ∧ other.preimage = found.preimage := by
  obtain ⟨name, again⟩ := presents _ _ (mine.trans theirs.symm) _ one.backend
  have reported : other.verified = { found.verified with label := name } := Except.ok.inj (two.backend.symm.trans again)
  have sameParams : other.params = found.params := by
    have checked := two.params
    rw [reported] at checked
    exact Except.ok.inj (checked.symm.trans one.params)
  obtain ⟨signature, presented, encoded⟩ := one.preimage
  obtain ⟨signature', presented', encoded'⟩ := two.preimage
  cases Option.some.inj (presented.symm.trans (header.trans presented'))
  refine ⟨sameParams, ?_⟩
  rw [← label, sameParams] at encoded'
  exact Option.some.inj (encoded'.symm.trans encoded)

/-- A statement accepted at one instant can no longer be accepted once its reservation has run out. -/
theorem window_over {signed : S} {first second : SignatureCall} {found other : Candidate}
    (outlasts : Outlasts verifier statement signed) (mine : Carries lower statement signed first.request)
    (one : Grounds lower verifier first.request first.now found)
    (two : Grounds lower verifier second.request second.now other) (same : other.params = found.params) :
    second.now < first.now + verifier.replayTtl := by
  obtain ⟨times, window⟩ := one.times
  obtain ⟨laterTimes, laterWindow⟩ := two.times
  obtain ⟨opened, -, -⟩ := checkTimes_window window
  obtain ⟨-, aged, ended⟩ := checkTimes_window laterWindow
  obtain ⟨created, expires⟩ := checkParameters_reported one.params
  have long := outlasts _ _ _ _ mine one.backend created expires
  rw [same] at aged ended
  omega

/-- Under a clock that never goes back, a signed statement is accepted at most
once, provided that its reservation outlasts the time it can be accepted in and
that all its presentations have one label and one `Signature` header text. -/
theorem statement_accepted_once (presents : Presents verifier statement) (signed : S)
    (outlasts : Outlasts verifier statement signed) {init : ReplayStore}
    {past : List (SignatureCall × Except PyError (Except RejectedProof VerifiedProof))}
    (history : History (answerCall lower sha256 verifier) Monotone init past store)
    (spelling : OneSpelling lower verifier statement signed past) :
    past.Pairwise fun first second =>
      ¬(Accepts lower statement signed first ∧ Accepts lower statement signed second) := by
  induction history with
  | start => exact List.Pairwise.nil
  | @next past store call history monotone ih =>
    have before := ih fun first inPast second inPast' =>
      spelling first (List.mem_append_left _ inPast) second (List.mem_append_left _ inPast')
    refine List.pairwise_append.mpr ⟨before, List.pairwise_singleton _ _, fun first inPast second last both => ?_⟩
    cases List.mem_singleton.mp last
    obtain ⟨⟨mine, accepted⟩, ⟨theirs, again⟩⟩ := both
    obtain ⟨identity, held⟩ := reserved_of_accepted accepted
    obtain ⟨identity', heldAgain⟩ := reserved_of_accepted again
    obtain ⟨earlier, -, -, answer⟩ := history.answered inPast
    obtain ⟨found, -, passed, isIdentity, -⟩ := verify_reserved (answer ▸ held)
    obtain ⟨other, -, passedNow, isIdentity', -⟩ := verify_reserved heldAgain
    have one := candidate_grounds passed
    have two := candidate_grounds passedNow
    obtain ⟨header, label⟩ := spelling first (List.mem_append_left _ inPast) _
      (List.mem_append_right _ (List.mem_singleton_self _)) mine theirs
    obtain ⟨sameParams, samePreimage⟩ := candidates_agree presents mine theirs header
      (label _ _ one.backend two.backend) one two
    have same : identity' = identity := by rw [isIdentity, isIdentity', samePreimage]
    have soon := window_over outlasts mine one two sameParams
    have late := guards.apart history monotone inPast held (same ▸ heldAgain)
    omega

/-- A request whose signature carries the given label. -/
def labelledRequest (label : String) : SignedRequest :=
  ⟨"GET".codePoints, "https://api.example/".codePoints,
    (Dict.empty.set "signature-input".codePoints (label ++ "=()").codePoints).set "signature".codePoints
      (label ++ "=:AA==:").codePoints, []⟩

/-- What the backend reports for the signature of such a request. -/
def labelledReport (label : Text) : BackendVerification :=
  ⟨label, "hmac-sha256".codePoints, ["@method".codePoints],
    ((((Dict.empty.set "keyid".codePoints (.str "key".codePoints)).set "created".codePoints (.int 1000)).set
      "expires".codePoints (.int 1060)).set "nonce".codePoints (.str "nonce".codePoints)).set "tag".codePoints
      (.str "app".codePoints)⟩

theorem app_named : ["@method".codePoints] ≠ [] ∧ "app".codePoints ≠ [] ∧ ["hmac-sha256".codePoints] ≠ [] := by decide

/-- A verifier whose backend takes the label from the header and accepts it all. -/
def labelledVerifier (replayTtl : Int) (positive : 0 < replayTtl) : HttpMessageSignatureVerifier :=
  { requiredComponents := ["@method".codePoints]
    expectedTag := "app".codePoints
    allowedAlgorithms := ["hmac-sha256".codePoints]
    backend := fun request _ _ =>
      .ok (labelledReport (((request.headers.get? "signature".codePoints).getD []).takeWhile (· ≠ 0x3d)))
    maxAge := 300000000
    maxLifetime := 300000000
    clockSkew := 30000000
    replayTtl
    expectedNonce := none
    requireContentDigest := false
    contentDigest := fun _ _ => .ok ()
    named := app_named
    positive := ⟨by decide, by decide, by decide, positive⟩ }

/-- The digests of the two texts these requests are remembered by. -/
def labelledDigest (preimage : List UInt8) : Text :=
  if preimage.head? = some 0x61 then
    "d4dfda157d4d553c72e058b50acffd60ddd03cd48edf29a3e0527814dbcfc863".codePoints
  else "8b520e09c7adecf622c2b05bc52b44dc1782fe30213672aeef7dfe1d73c09c00".codePoints

theorem labelled_presents (replayTtl : Int) (positive : 0 < replayTtl) :
    Presents (labelledVerifier replayTtl positive) SignedRequest.body := by
  intro request other _ verified answer
  cases answer
  exact ⟨_, rfl⟩

theorem labelled_outlasts (replayTtl : Int) (positive : 0 < replayTtl) (signed : List UInt8)
    (long : 120000000 < replayTtl) : Outlasts (labelledVerifier replayTtl positive) SignedRequest.body signed := by
  intro request verified created expires _ answer foundCreated foundExpires
  cases answer
  have createdIs : created = 1000 := by
    have reported : (labelledReport []).parameters.get? "created".codePoints = some (.int 1000) := by decide +kernel
    cases reported.symm.trans foundCreated
    rfl
  have expiresIs : expires = 1060 := by
    have reported : (labelledReport []).parameters.get? "expires".codePoints = some (.int 1060) := by decide +kernel
    cases reported.symm.trans foundExpires
    rfl
  simp only [createdIs, expiresIs, labelledVerifier]
  omega

/-- Two calls, one after the other. -/
theorem two_calls (lower : Text → Text) (sha256 : List UInt8 → Text) (verifier : HttpMessageSignatureVerifier)
    (init : ReplayStore) (first second : SignatureCall) (later : first.now ≤ second.now) :
    History (answerCall lower sha256 verifier) Monotone init
      [(first, (answerCall lower sha256 verifier init first).1),
        (second, (answerCall lower sha256 verifier (answerCall lower sha256 verifier init first).2 second).1)]
      (answerCall lower sha256 verifier (answerCall lower sha256 verifier init first).2 second).2 := by
  refine .next second (.next first .start fun _ none_ => nomatch none_) fun earlier inPast => ?_
  cases List.mem_singleton.mp inPast
  exact later

/-- The same request presented twice: the second call is not accepted. -/
theorem second_presentation_refused :
    ∃ (verifier : HttpMessageSignatureVerifier) (first second : SignatureCall × Except PyError (Except RejectedProof VerifiedProof))
      (store : ReplayStore), Presents verifier SignedRequest.body ∧ Outlasts verifier SignedRequest.body [] ∧
      History (answerCall id labelledDigest verifier) Monotone (.empty 4) [first, second] store ∧
      OneSpelling id verifier SignedRequest.body [] [first, second] ∧ isAccepted first.2 = true ∧
      ¬Accepts id SignedRequest.body [] second := by
  let verifier := labelledVerifier 600000000 (by decide)
  let call : SignatureCall := ⟨labelledRequest "a", 1010000000⟩
  have history := two_calls id labelledDigest verifier (.empty 4) call call (le_refl _)
  have presents : Presents verifier SignedRequest.body := labelled_presents _ _
  have outlasts : Outlasts verifier SignedRequest.body [] := labelled_outlasts _ _ [] (by decide)
  have spelling : OneSpelling id verifier SignedRequest.body []
      [(call, (answerCall id labelledDigest verifier (.empty 4) call).1),
        (call, (answerCall id labelledDigest verifier (answerCall id labelledDigest verifier (.empty 4) call).2 call).1)] := by
    intro first inPast second inPast' _ _
    have one : first.1 = call := by
      rcases List.mem_pair.mp inPast with same | same <;> rw [same]
    have two : second.1 = call := by
      rcases List.mem_pair.mp inPast' with same | same <;> rw [same]
    rw [one, two]
    refine ⟨rfl, fun _ _ answer again => ?_⟩
    rw [Except.ok.inj (answer.symm.trans again)]
  have accepted : isAccepted (answerCall id labelledDigest verifier (.empty 4) call).1 = true := by decide +kernel
  have once := statement_accepted_once presents [] outlasts history spelling
  refine ⟨verifier, _, _, _, presents, outlasts, history, spelling, accepted, fun again => ?_⟩
  exact (List.pairwise_pair.mp once) ⟨⟨rfl, isAccepted_iff.mp accepted⟩, again⟩

/-- Neither condition can be dropped. One signed statement is accepted twice if
its signature is presented under labels `a` and `b`, and also if it is presented
again after a reservation of one minute, while it can still be accepted. -/
theorem statement_accepted_twice :
    (¬∀ (sha256 : List UInt8 → Text) (verifier : HttpMessageSignatureVerifier) (signed : List UInt8)
      (past : List (SignatureCall × Except PyError (Except RejectedProof VerifiedProof))) (store : ReplayStore),
      Presents verifier SignedRequest.body → Outlasts verifier SignedRequest.body signed →
      History (answerCall id sha256 verifier) Monotone (.empty 4) past store →
      past.Pairwise fun first second =>
        ¬(Accepts id SignedRequest.body signed first ∧ Accepts id SignedRequest.body signed second)) ∧
    ¬∀ (sha256 : List UInt8 → Text) (verifier : HttpMessageSignatureVerifier) (signed : List UInt8)
      (past : List (SignatureCall × Except PyError (Except RejectedProof VerifiedProof))) (store : ReplayStore),
      Presents verifier SignedRequest.body → OneSpelling id verifier SignedRequest.body signed past →
      History (answerCall id sha256 verifier) Monotone (.empty 4) past store →
      past.Pairwise fun first second =>
        ¬(Accepts id SignedRequest.body signed first ∧ Accepts id SignedRequest.body signed second) := by
  constructor
  · intro always
    let verifier := labelledVerifier 600000000 (by decide)
    let call : SignatureCall := ⟨labelledRequest "a", 1010000000⟩
    let relabelled : SignatureCall := ⟨labelledRequest "b", 1010000000⟩
    have once := always labelledDigest verifier [] _ _ (labelled_presents _ _) (labelled_outlasts _ _ [] (by decide))
      (two_calls id labelledDigest verifier (.empty 4) call relabelled (le_refl _))
    refine (List.pairwise_pair.mp once) ⟨⟨rfl, isAccepted_iff.mp ?_⟩, rfl, isAccepted_iff.mp ?_⟩ <;> decide +kernel
  · intro always
    let verifier := labelledVerifier 60000000 (by decide)
    let call : SignatureCall := ⟨labelledRequest "a", 1010000000⟩
    let again : SignatureCall := ⟨labelledRequest "a", 1080000000⟩
    have once := always labelledDigest verifier [] _ _ (labelled_presents _ _) ?_
      (two_calls id labelledDigest verifier (.empty 4) call again (by decide))
    · refine (List.pairwise_pair.mp once) ⟨⟨rfl, isAccepted_iff.mp ?_⟩, rfl, isAccepted_iff.mp ?_⟩ <;> decide +kernel
    · intro first inPast second inPast' _ _
      have one : first.1.request = labelledRequest "a" := by
        rcases List.mem_pair.mp inPast with same | same <;> rw [same]
      have two : second.1.request = labelledRequest "a" := by
        rcases List.mem_pair.mp inPast' with same | same <;> rw [same]
      rw [one, two]
      refine ⟨rfl, fun _ _ answer again => ?_⟩
      rw [Except.ok.inj (answer.symm.trans again)]

end HttpMessageSignatureVerifier

end Pytitect
