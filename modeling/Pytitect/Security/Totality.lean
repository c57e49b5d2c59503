import Pytitect.Security.SingleUse

namespace Pytitect

/-- An instant that a `datetime` can hold. -/
def InCalendar (instant : Int) : Prop := minDatetime ≤ instant ∧ instant ≤ maxDatetime

theorem datetimeCheck_cases (instant : Int) : (datetimeCheck instant = .ok instant ∧ InCalendar instant) ∨
    ((∃ error, datetimeCheck instant = .error error) ∧ ¬InCalendar instant) := by
  unfold datetimeCheck InCalendar
  split
  · rename_i fits
    exact .inl ⟨rfl, fits⟩
  · rename_i outside
    exact .inr ⟨⟨_, rfl⟩, outside⟩

theorem fromTimestamp_cases (seconds : Int) :
    (fromTimestamp seconds = .ok (seconds * 1000000) ∧ InCalendar (seconds * 1000000)) ∨
      ((∃ error, fromTimestamp seconds = .error error) ∧ ¬InCalendar (seconds * 1000000)) := by
  unfold fromTimestamp InCalendar
  split
  · rename_i fits
    exact .inl ⟨rfl, fits⟩
  · rename_i outside
    exact .inr ⟨⟨_, rfl⟩, outside⟩

namespace HttpMessageSignatureVerifier

section
variable (lower : Text → Text) (verifier : HttpMessageSignatureVerifier) (request : SignedRequest)

/-- The request has both headers, and its digest is in order if one is required. -/
structure Presented (signature : Text) : Prop where
  input : (normalized lower request).headers.get? "signature-input".codePoints ≠ none
  signature : (normalized lower request).headers.get? "signature".codePoints = some signature
  digest : verifier.requireContentDigest = true →
    verifier.contentDigest request.body ((normalized lower request).headers.get? "content-digest".codePoints) = .ok () ∧
      "content-digest".codePoints ∈ verifier.requiredComponents

/-- The backend finds a signature of an allowed algorithm that covers what is required. -/
structure Reported (verified : BackendVerification) : Prop where
  backend : verifier.backend (normalized lower request) verifier.allowedAlgorithms verifier.expectedTag = .ok verified
  algorithm : verified.algorithm ∈ verifier.allowedAlgorithms
  components : ∀ component ∈ verifier.requiredComponents, component ∈ verified.coveredComponents

/-- The parameters are there, of their types and as they are expected. -/
structure Declares (reported : Dict Text ParameterValue) (params : SignatureParameters) : Prop where
  keyId : reported.get? "keyid".codePoints = some (.str params.keyId) ∧ params.keyId ≠ []
  created : reported.get? "created".codePoints = some (.int params.created)
  expires : reported.get? "expires".codePoints = some (.int params.expires)
  tag : reported.get? "tag".codePoints = some (.str verifier.expectedTag)
  nonce : reported.get? "nonce".codePoints = some (.str params.nonce) ∧ params.nonce ≠ []
  expected : verifier.expectedNonce.any (· ≠ params.nonce) = false

/-- All instants that the checks compute are of the calendar. -/
structure TimesFit (params : SignatureParameters) (now : Int) : Prop where
  created : InCalendar (params.created * 1000000)
  expires : InCalendar (params.expires * 1000000)
  latest : InCalendar (now + verifier.clockSkew)
  earliest : params.created * 1000000 ≤ now + verifier.clockSkew →
    InCalendar (now - verifier.maxAge) ∧ InCalendar (now - verifier.maxAge - verifier.clockSkew)

/-- The window in which a signature is accepted. -/
structure InWindow (params : SignatureParameters) (now : Int) : Prop where
  issued : params.created * 1000000 ≤ now + verifier.clockSkew
  fresh : now - verifier.maxAge - verifier.clockSkew ≤ params.created * 1000000
  ends : now - verifier.clockSkew ≤ params.expires * 1000000
  ordered : params.created * 1000000 < params.expires * 1000000
  lifetime : params.expires * 1000000 - params.created * 1000000 ≤ verifier.maxLifetime

/-- What a request must not bring about: an instant outside the calendar, or a text without a UTF-8 form. -/
def Convertible (sha256 : List UInt8 → Text) (now : Int) (store : ReplayStore) : Prop :=
  ∀ signature verified params, Presented lower verifier request signature → Reported lower verifier request verified →
    Declares verifier verified.parameters params →
      TimesFit verifier params now ∧ (InWindow verifier params now →
        ∃ preimage, Text.encode (proofText verified.label params.keyId params.nonce signature) = some preimage ∧
          ((store.purgeExpired now).entries.get? (replayIdentity sha256 preimage) = none →
            (store.purgeExpired now).entries.size < store.capacity → InCalendar (now + verifier.replayTtl)))

end

section
variable {lower : Text → Text} {verifier : HttpMessageSignatureVerifier} {request : SignedRequest} {now : Int}

theorem presented_cases : (∃ proof, presented lower verifier request = .error (.rejected proof) ∧
      ∀ signature, ¬Presented lower verifier request signature) ∨
    ∃ signature, presented lower verifier request = .ok signature ∧ Presented lower verifier request signature := by
  unfold presented
  split
  · rename_i input signature foundInput foundSignature
    have there : (normalized lower request).headers.get? "signature-input".codePoints ≠ none := by
      rw [foundInput]
      exact Option.some_ne_none _
    split
    · rename_i required
      split
      · rename_i proof wrong
        refine .inl ⟨proof, rfl, fun signature presented => ?_⟩
        exact absurd (wrong.symm.trans (presented.digest required).1) (fun absurd => (by cases absurd))
      rename_i right
      split
      · rename_i uncovered
        exact .inl ⟨_, rfl, fun signature presented => uncovered (presented.digest required).2⟩
      · rename_i covered
        exact .inr ⟨signature, rfl, there, foundSignature, fun _ => ⟨right, not_not.mp covered⟩⟩
    · rename_i free
      exact .inr ⟨signature, rfl, there, foundSignature, fun required => absurd required free⟩
  · rename_i missing
    refine .inl ⟨_, rfl, fun signature presented => ?_⟩
    obtain ⟨input, found⟩ := Option.ne_none_iff_exists'.mp presented.input
    exact missing input signature found presented.signature

theorem verifyBackend_cases : (∃ proof, verifyBackend lower verifier request = .error (.rejected proof) ∧
      ∀ verified, ¬Reported lower verifier request verified) ∨
    (∃ message, verifyBackend lower verifier request = .error (.raised (.runtimeError message)) ∧
      verifier.backend (normalized lower request) verifier.allowedAlgorithms verifier.expectedTag = .error (.runtimeError message)) ∨
    ∃ verified, verifyBackend lower verifier request = .ok verified ∧ Reported lower verifier request verified := by
  unfold verifyBackend
  split
  · rename_i verified answer
    have found : ∀ {other}, Reported lower verifier request other → other = verified := fun reported =>
      Except.ok.inj (reported.backend.symm.trans answer)
    split
    · rename_i other
      refine .inl ⟨_, rfl, fun reported holds => other ?_⟩
      exact found holds ▸ holds.algorithm
    rename_i allowed
    split
    · rename_i missing
      refine .inl ⟨_, rfl, fun reported holds => missing ?_⟩
      exact found holds ▸ holds.components
    · rename_i covered
      exact .inr (.inr ⟨verified, rfl, answer, not_not.mp allowed, not_not.mp covered⟩)
  · rename_i message answer
    exact .inr (.inl ⟨message, rfl, answer⟩)
  · rename_i error answer
    refine .inl ⟨_, rfl, fun verified reported => ?_⟩
    exact absurd (reported.backend.symm.trans answer) (fun absurd => (by cases absurd))

theorem checkParameters_cases (reported : Dict Text ParameterValue) :
    (∃ proof, checkParameters verifier reported = .error (.rejected proof) ∧ ∀ params, ¬Declares verifier reported params) ∨
      ∃ params, checkParameters verifier reported = .ok params ∧ Declares verifier reported params := by
  unfold checkParameters
  split
  · rename_i k keyId isKey
    split
    · rename_i created isCreated
      split
      · rename_i expires isExpires
        split
        · rename_i other
          exact .inl ⟨_, rfl, fun params declares => other declares.tag⟩
        rename_i tagged
        split
        · rename_i n nonce isNonce
          split
          · rename_i unexpected
            refine .inl ⟨_, rfl, fun params declares => ?_⟩
            have same : params.nonce = n :: nonce := by
              injection Option.some.inj (declares.nonce.1.symm.trans isNonce)
            have expected := declares.expected
            rw [same, unexpected] at expected
            cases expected
          · rename_i expected
            exact .inr ⟨_, rfl, ⟨isKey, List.cons_ne_nil _ _⟩, isCreated, isExpires, not_not.mp tagged,
              ⟨isNonce, List.cons_ne_nil _ _⟩, Bool.not_eq_true _ ▸ expected⟩
        · rename_i other
          refine .inl ⟨_, rfl, fun params declares => ?_⟩
          obtain ⟨n, nonce, same⟩ := List.exists_cons_of_ne_nil declares.nonce.2
          exact other n nonce (same ▸ declares.nonce.1)
      · rename_i other
        exact .inl ⟨_, rfl, fun params declares => other _ declares.expires⟩
    · rename_i other
      exact .inl ⟨_, rfl, fun params declares => other _ declares.created⟩
  · rename_i other
    refine .inl ⟨_, rfl, fun params declares => ?_⟩
    obtain ⟨k, keyId, same⟩ := List.exists_cons_of_ne_nil declares.keyId.2
    exact other k keyId (same ▸ declares.keyId.1)

/-- The parameters are what the check answers. -/
theorem Declares.unique {reported : Dict Text ParameterValue} {params other : SignatureParameters}
    (declares : Declares verifier reported params) (declares' : Declares verifier reported other) : params = other := by
  obtain ⟨keyId, created, expires, nonce⟩ := params
  obtain ⟨keyId', created', expires', nonce'⟩ := other
  have key := Option.some.inj (declares.keyId.1.symm.trans declares'.keyId.1)
  have issue := Option.some.inj (declares.created.symm.trans declares'.created)
  have ending := Option.some.inj (declares.expires.symm.trans declares'.expires)
  have once := Option.some.inj (declares.nonce.1.symm.trans declares'.nonce.1)
  simp only [ParameterValue.str.injEq, ParameterValue.int.injEq] at key issue ending once
  rw [key, issue, ending, once]

/-- The conversions fail, or the signature is outside its window, or it is inside. -/
theorem checkTimes_cases (params : SignatureParameters) (now : Int) :
    ((∃ error, checkTimes verifier params now = .error (.raised error)) ∧ ¬TimesFit verifier params now) ∨
      ((∃ proof, checkTimes verifier params now = .error (.rejected proof)) ∧ TimesFit verifier params now ∧
        ¬InWindow verifier params now) ∨
      ((∃ times, checkTimes verifier params now = .ok times) ∧ TimesFit verifier params now ∧ InWindow verifier params now) := by
  have positive := verifier.positive
  rcases fromTimestamp_cases params.created with ⟨issued, issuedIn⟩ | ⟨⟨error, issued⟩, issuedOut⟩
  swap
  · refine .inl ⟨⟨error, ?_⟩, fun fit => issuedOut fit.created⟩
    unfold checkTimes
    rw [issued]
    rfl
  rcases fromTimestamp_cases params.expires with ⟨ending, endingIn⟩ | ⟨⟨error, ending⟩, endingOut⟩
  swap
  · refine .inl ⟨⟨error, ?_⟩, fun fit => endingOut fit.expires⟩
    unfold checkTimes
    rw [issued, ending]
    rfl
  rcases datetimeCheck_cases (now + verifier.clockSkew) with ⟨latest, latestIn⟩ | ⟨⟨error, latest⟩, latestOut⟩
  swap
  · refine .inl ⟨⟨error, ?_⟩, fun fit => latestOut fit.latest⟩
    unfold checkTimes datetimeAdd
    rw [issued, ending, latest]
    rfl
  by_cases early : now + verifier.clockSkew < params.created * 1000000
  · refine .inr (.inl ⟨⟨⟨"stale_signature", "created is outside the accepted time window"⟩, ?_⟩,
      ⟨issuedIn, endingIn, latestIn, fun late => ?_⟩, fun window => ?_⟩)
    · unfold checkTimes datetimeAdd
      rw [issued, ending, latest]
      exact if_pos early
    · omega
    · have issuedBy := window.issued
      omega
  rcases datetimeCheck_cases (now - verifier.maxAge) with ⟨oldest, oldestIn⟩ | ⟨⟨error, oldest⟩, oldestOut⟩
  swap
  · refine .inl ⟨⟨error, ?_⟩, fun fit => oldestOut (fit.earliest (by omega)).1⟩
    unfold checkTimes datetimeAdd datetimeSub
    rw [issued, ending, latest, oldest]
    exact if_neg early
  rcases datetimeCheck_cases (now - verifier.maxAge - verifier.clockSkew) with ⟨earliest, earliestIn⟩ | ⟨⟨error, earliest⟩, earliestOut⟩
  swap
  · refine .inl ⟨⟨error, ?_⟩, fun fit => earliestOut (fit.earliest (by omega)).2⟩
    unfold checkTimes datetimeAdd datetimeSub
    rw [issued, ending, latest, oldest]
    refine (if_neg early).trans ?_
    change (attempt (datetimeCheck (now - verifier.maxAge - verifier.clockSkew)) >>= _) = _
    rw [earliest]
    rfl
  have fit : TimesFit verifier params now := ⟨issuedIn, endingIn, latestIn, fun _ => ⟨oldestIn, earliestIn⟩⟩
  have inside : InCalendar (now - verifier.clockSkew) := by
    unfold InCalendar at earliestIn latestIn ⊢
    omega
  have ended : datetimeCheck (now - verifier.clockSkew) = .ok (now - verifier.clockSkew) := if_pos inside
  have opened : checkTimes verifier params now =
      if params.created * 1000000 < now - verifier.maxAge - verifier.clockSkew then
        reject "stale_signature" "created is outside the accepted time window"
      else if params.expires * 1000000 < now - verifier.clockSkew ∨ params.expires * 1000000 ≤ params.created * 1000000 then
        reject "expired_signature" "expires is invalid or in the past"
      else if verifier.maxLifetime < params.expires * 1000000 - params.created * 1000000 then
        reject "lifetime_exceeded" "signature lifetime exceeds policy"
      else .ok (params.created * 1000000, params.expires * 1000000) := by
    unfold checkTimes datetimeAdd datetimeSub
    rw [issued, ending, latest, oldest, ended]
    refine (if_neg early).trans ?_
    change (attempt (datetimeCheck (now - verifier.maxAge - verifier.clockSkew)) >>= _) = _
    rw [earliest]
    rfl
  rw [opened]
  split
  · rename_i old
    refine .inr (.inl ⟨⟨_, rfl⟩, fit, fun window => ?_⟩)
    have fresh := window.fresh
    omega
  rename_i young
  split
  · rename_i gone
    refine .inr (.inl ⟨⟨_, rfl⟩, fit, fun window => ?_⟩)
    have ends := window.ends
    have ordered := window.ordered
    omega
  rename_i running
  split
  · rename_i long
    refine .inr (.inl ⟨⟨_, rfl⟩, fit, fun window => ?_⟩)
    have lifetime := window.lifetime
    omega
  · rename_i short
    exact .inr (.inr ⟨⟨_, rfl⟩, fit, by omega, by omega, by omega, by omega, by omega⟩)

/-- How far a request gets: it is rejected before its times are looked at, the backend lacks a package, or its times decide. -/
theorem candidate_cases : ((∃ proof, candidate lower verifier request now = .error (.rejected proof)) ∧
      ¬∃ signature verified params, Presented lower verifier request signature ∧ Reported lower verifier request verified ∧
        Declares verifier verified.parameters params) ∨
    (∃ message, candidate lower verifier request now = .error (.raised (.runtimeError message)) ∧
      verifier.backend (normalized lower request) verifier.allowedAlgorithms verifier.expectedTag = .error (.runtimeError message)) ∨
    ∃ signature verified params, Presented lower verifier request signature ∧ Reported lower verifier request verified ∧
      Declares verifier verified.parameters params ∧ candidate lower verifier request now =
        (checkTimes verifier params now >>= fun times =>
          match Text.encode (proofText verified.label params.keyId params.nonce signature) with
          | none => .error (.raised .unicodeError)
          | some preimage => .ok ⟨verified, params, times.1, times.2, preimage⟩) := by
  rcases @presented_cases lower verifier request with ⟨proof, early, none⟩ | ⟨signature, shown, presented⟩
  · refine .inl ⟨⟨proof, ?_⟩, fun ⟨signature, _, _, presented, _⟩ => none signature presented⟩
    unfold candidate
    rw [early]
    rfl
  rcases @verifyBackend_cases lower verifier request with ⟨proof, refused, none⟩ | ⟨message, lacking, backend⟩ | ⟨verified, found, reported⟩
  · refine .inl ⟨⟨proof, ?_⟩, fun ⟨_, verified, _, _, reported, _⟩ => none verified reported⟩
    unfold candidate
    rw [shown, refused]
    rfl
  · refine .inr (.inl ⟨message, ?_, backend⟩)
    unfold candidate
    rw [shown, lacking]
    rfl
  rcases @checkParameters_cases verifier verified.parameters with ⟨proof, wrong, none⟩ | ⟨params, typed, declares⟩
  · refine .inl ⟨⟨proof, ?_⟩, fun ⟨_, other, params, _, reported', declares⟩ => none params ?_⟩
    · unfold candidate
      rw [shown, found]
      change (checkParameters verifier verified.parameters >>= _) = _
      rw [wrong]
      rfl
    · exact Except.ok.inj (reported'.backend.symm.trans reported.backend) ▸ declares
  · refine .inr (.inr ⟨signature, verified, params, presented, reported, declares, ?_⟩)
    unfold candidate
    rw [shown, found]
    change (checkParameters verifier verified.parameters >>= _) = _
    rw [typed]
    rfl

end

/-- A reservation with proper arguments fails only at the end of the calendar. -/
theorem reserve_cases {store : ReplayStore} {identity : ReplayIdentity} {now ttl : Int}
    (proper : ¬(identity.ns = [] ∨ identity.value = [] ∨ ttl ≤ 0)) :
    ((∃ error, (store.reserve identity now ttl).1 = .error error) ∧ (store.purgeExpired now).entries.get? identity = none ∧
      (store.purgeExpired now).entries.size < store.capacity ∧ ¬InCalendar (now + ttl)) ∨
    ((∃ decision, (store.reserve identity now ttl).1 = .ok decision) ∧
      ((store.purgeExpired now).entries.get? identity = none → (store.purgeExpired now).entries.size < store.capacity →
        InCalendar (now + ttl))) := by
  unfold ReplayStore.reserve
  rw [if_neg proper]
  dsimp only
  split
  · rename_i existing found
    refine .inr ⟨⟨_, rfl⟩, fun absent => ?_⟩
    rw [absent] at found
    cases found
  rename_i absent
  split
  · rename_i full
    refine .inr ⟨⟨_, rfl⟩, fun _ room => ?_⟩
    exact absurd full (Nat.not_le.mpr room)
  rename_i room
  rcases datetimeCheck_cases (now + ttl) with ⟨sum, inside⟩ | ⟨⟨error, sum⟩, outside⟩
  · have added : datetimeAdd now ttl = .ok (now + ttl) := sum
    rw [added]
    exact .inr ⟨⟨_, rfl⟩, fun _ _ => inside⟩
  · have added : datetimeAdd now ttl = .error error := sum
    rw [added]
    exact .inl ⟨⟨error, rfl⟩, absent, Nat.not_le.mp room, outside⟩

section
variable (lower : Text → Text) (sha256 : List UInt8 → Text) (verifier : HttpMessageSignatureVerifier)
  (request : SignedRequest) (now : Int) (store : ReplayStore)

/-- The call answers, unless the backend reports that a package is missing. -/
def Answers : Prop :=
  (∃ answer, (verify lower verifier sha256 request now store).1 = .ok answer) ∨
    ∃ message, verifier.backend (normalized lower request) verifier.allowedAlgorithms verifier.expectedTag = .error (.runtimeError message)

/-- A rejected request leaves no entry behind. -/
def LeavesNoEntry : Prop :=
  ∀ proof, (verify lower verifier sha256 request now store).1 = .ok (.error proof) → ∀ identity until_,
    (verify lower verifier sha256 request now store).2.entries.get? identity = some until_ →
      store.entries.get? identity = some until_

variable {lower sha256 verifier request now store}

theorem get?_of_purgeExpired {identity : ReplayIdentity} {until_ : Int}
    (found : (store.purgeExpired now).entries.get? identity = some until_) : store.entries.get? identity = some until_ := by
  unfold ReplayStore.purgeExpired at found
  dsimp only at found
  rw [Dict.get?_popAll] at found
  split at found
  · cases found
  · exact found

/-- A reservation that is refused only forgets what has expired. -/
theorem reserve_refused {identity : ReplayIdentity} {ttl : Int} {decision : ReplayDecision}
    (refused : (store.reserve identity now ttl).1 = .ok decision) (other : ∀ expiresAt, decision ≠ .accepted expiresAt) :
    (store.reserve identity now ttl).2 = store.purgeExpired now := by
  unfold ReplayStore.reserve at refused ⊢
  split at refused
  · cases refused
  rename_i proper
  rw [if_neg proper]
  dsimp only at refused ⊢
  split at refused
  · rfl
  split at refused
  · rename_i full
    rw [if_pos full]
  rename_i room
  rw [if_neg room]
  cases sum : datetimeAdd now ttl with
  | error error => rfl
  | ok expiresAt =>
    rw [sum] at refused
    exact absurd (Except.ok.inj refused).symm (other expiresAt)

theorem leavesNoEntry : LeavesNoEntry lower sha256 verifier request now store := by
  intro proof rejected identity until_ found
  unfold verify at rejected found
  cases passed : candidate lower verifier request now with
  | error refusal =>
    rw [passed] at rejected found
    cases refusal with
    | rejected other => exact found
    | raised error => cases rejected
  | ok made =>
    rw [passed] at rejected found
    dsimp only at rejected found
    rcases run : store.reserve (replayIdentity sha256 made.preimage) now verifier.replayTtl with ⟨error | decision, after⟩
    · rw [run] at rejected
      cases rejected
    · have refused := congrArg Prod.fst run
      have left := congrArg Prod.snd run
      rw [run] at rejected found
      cases decision with
      | accepted expiresAt => cases rejected
      | detected firstSeenUntil =>
        rw [reserve_refused refused (fun _ absurd => (by cases absurd))] at left
        exact get?_of_purgeExpired (left ▸ found)
      | capacityExceeded capacity =>
        rw [reserve_refused refused (fun _ absurd => (by cases absurd))] at left
        exact get?_of_purgeExpired (left ▸ found)

/-- An answer is an answer of the candidate or of the store. -/
theorem answered_iff : (∃ answer, (verify lower verifier sha256 request now store).1 = .ok answer) ↔
    (∃ proof, candidate lower verifier request now = .error (.rejected proof)) ∨
      ∃ found, candidate lower verifier request now = .ok found ∧
        ∃ decision, (store.reserve (replayIdentity sha256 found.preimage) now verifier.replayTtl).1 = .ok decision := by
  unfold verify
  cases passed : candidate lower verifier request now with
  | error refusal =>
    cases refusal with
    | rejected proof => exact ⟨fun _ => .inl ⟨proof, rfl⟩, fun _ => ⟨_, rfl⟩⟩
    | raised error =>
      refine ⟨fun ⟨answer, absurd⟩ => (by cases absurd), ?_⟩
      rintro (⟨proof, absurd⟩ | ⟨found, absurd, -⟩) <;> cases absurd
  | ok found =>
    dsimp only
    rcases run : store.reserve (replayIdentity sha256 found.preimage) now verifier.replayTtl with ⟨error | decision, after⟩
    · refine ⟨fun ⟨answer, absurd⟩ => (by cases absurd), ?_⟩
      rintro (⟨proof, absurd⟩ | ⟨found', same, decision, granted⟩)
      · cases absurd
      · rw [← Except.ok.inj same, run] at granted
        cases granted
    · refine ⟨fun _ => .inr ⟨found, rfl, decision, congrArg Prod.fst run⟩, fun _ => ?_⟩
      cases decision with
      | accepted expiresAt => exact ⟨_, rfl⟩
      | detected firstSeenUntil => exact ⟨_, rfl⟩
      | capacityExceeded capacity => exact ⟨_, rfl⟩

/-- A call answers, and leaves no entry behind when it rejects, exactly when every conversion that the request gets to is
possible. -/
theorem verify_answers_iff (named : ∀ bytes, sha256 bytes ≠ []) :
    Answers lower sha256 verifier request now store ∧ LeavesNoEntry lower sha256 verifier request now store ↔
      Convertible lower verifier request sha256 now store := by
  rw [and_iff_left leavesNoEntry]
  unfold Answers
  rw [answered_iff]
  rcases @candidate_cases lower verifier request now with ⟨⟨proof, early⟩, none⟩ | ⟨message, -, backend⟩ |
    ⟨signature, verified, params, presented, reported, declares, decided⟩
  · refine ⟨fun _ signature verified params presented reported declares => ?_, fun _ => .inl (.inl ⟨proof, early⟩)⟩
    exact absurd ⟨signature, verified, params, presented, reported, declares⟩ none
  · refine ⟨fun _ signature verified params presented reported declares => ?_, fun _ => .inr ⟨message, backend⟩⟩
    exact absurd (reported.backend.symm.trans backend) (fun absurd => (by cases absurd))
  have supplied : ¬∃ message, verifier.backend (normalized lower request) verifier.allowedAlgorithms verifier.expectedTag =
      .error (.runtimeError message) := fun ⟨message, backend⟩ =>
    absurd (reported.backend.symm.trans backend) (fun absurd => (by cases absurd))
  have proper : ∀ preimage, ¬((replayIdentity sha256 preimage).ns = [] ∨ (replayIdentity sha256 preimage).value = [] ∨
      verifier.replayTtl ≤ 0) := by
    rintro preimage (noNamespace | noValue | short)
    · cases noNamespace
    · exact named preimage noValue
    · have positive := verifier.positive
      omega
  have only : Convertible lower verifier request sha256 now store ↔
      TimesFit verifier params now ∧ (InWindow verifier params now →
        ∃ preimage, Text.encode (proofText verified.label params.keyId params.nonce signature) = some preimage ∧
          ((store.purgeExpired now).entries.get? (replayIdentity sha256 preimage) = none →
            (store.purgeExpired now).entries.size < store.capacity → InCalendar (now + verifier.replayTtl))) := by
    refine ⟨fun convertible => convertible signature verified params presented reported declares, fun possible => ?_⟩
    intro signature' verified' params' presented' reported' declares'
    have sameSignature := Option.some.inj (presented'.signature.symm.trans presented.signature)
    have sameReport := Except.ok.inj (reported'.backend.symm.trans reported.backend)
    rw [sameReport] at declares' ⊢
    rw [declares'.unique declares, sameSignature]
    exact possible
  rw [or_iff_left supplied, only]
  rcases @checkTimes_cases verifier params now with ⟨⟨error, raised⟩, unfit⟩ | ⟨⟨proof, late⟩, fit, outside⟩ |
    ⟨⟨times, timed⟩, fit, inside⟩
  · have whole : candidate lower verifier request now = .error (.raised error) := by
      rw [decided, raised]
      rfl
    rw [whole]
    refine ⟨?_, fun possible => absurd possible.1 unfit⟩
    rintro (⟨proof, absurd⟩ | ⟨found, absurd, -⟩) <;> cases absurd
  · have whole : candidate lower verifier request now = .error (.rejected proof) := by
      rw [decided, late]
      rfl
    exact ⟨fun _ => ⟨fit, fun inside => absurd inside outside⟩, fun _ => .inl ⟨proof, whole⟩⟩
  cases encoded : Text.encode (proofText verified.label params.keyId params.nonce signature) with
  | none =>
    have whole : candidate lower verifier request now = .error (.raised .unicodeError) := by
      rw [decided, timed, encoded]
      rfl
    rw [whole]
    constructor
    · rintro (⟨proof, absurd⟩ | ⟨found, absurd, -⟩) <;> cases absurd
    · intro possible
      obtain ⟨preimage, absurd, -⟩ := possible.2 inside
      cases absurd
  | some preimage =>
    have whole : candidate lower verifier request now = .ok ⟨verified, params, times.1, times.2, preimage⟩ := by
      rw [decided, timed, encoded]
      rfl
    rw [whole]
    rcases @reserve_cases store _ now _ (proper preimage) with ⟨⟨error, raised⟩, absent, room, beyond⟩ |
      ⟨⟨decision, granted⟩, possible⟩
    · constructor
      · rintro (⟨proof, absurd⟩ | ⟨found, same, decision, granted⟩)
        · cases absurd
        · rw [← Except.ok.inj same] at granted
          exact absurd (raised.symm.trans granted) (fun absurd => (by cases absurd))
      · intro possible
        obtain ⟨other, same, fits⟩ := possible.2 inside
        rw [← Option.some.inj same] at fits
        exact absurd (fits absent room) beyond
    · exact ⟨fun _ => ⟨fit, fun _ => ⟨preimage, rfl, possible⟩⟩, fun _ => .inr ⟨_, rfl, decision, granted⟩⟩

end

/-- A request that is accepted gets through all conversions. -/
theorem labelled_call_convertible : Convertible id (labelledVerifier 600000000 (by decide)) (labelledRequest "a") labelledDigest
    1010000000 (.empty 4) := by
  have named : ∀ bytes, labelledDigest bytes ≠ [] := by
    intro bytes
    unfold labelledDigest
    split <;> exact List.cons_ne_nil _ _
  have accepted : isAccepted (verify id (labelledVerifier 600000000 (by decide)) labelledDigest (labelledRequest "a") 1010000000
      (.empty 4)).1 = true := by decide +kernel
  obtain ⟨proof, answered⟩ := isAccepted_iff.mp accepted
  exact (verify_answers_iff named).mp ⟨.inl ⟨_, answered⟩, leavesNoEntry⟩

/-- A report whose signature was created far beyond the calendar. -/
def distantReport : BackendVerification :=
  ⟨"a".codePoints, "hmac-sha256".codePoints, ["@method".codePoints],
    ((((Dict.empty.set "keyid".codePoints (.str "key".codePoints)).set "created".codePoints (.int 1000000000000)).set
      "expires".codePoints (.int 1000000000060)).set "nonce".codePoints (.str "nonce".codePoints)).set "tag".codePoints
      (.str "app".codePoints)⟩

/-- A verifier whose backend reports it for every request. -/
def distantVerifier : HttpMessageSignatureVerifier :=
  { requiredComponents := ["@method".codePoints]
    expectedTag := "app".codePoints
    allowedAlgorithms := ["hmac-sha256".codePoints]
    backend := fun _ _ _ => .ok distantReport
    maxAge := 300000000
    maxLifetime := 300000000
    clockSkew := 30000000
    replayTtl := 600000000
    expectedNonce := none
    requireContentDigest := false
    contentDigest := fun _ _ => .ok ()
    named := app_named
    positive := by decide }

def distantRequest : SignedRequest :=
  ⟨"GET".codePoints, "https://api.example/".codePoints,
    (Dict.empty.set "signature-input".codePoints "a=()".codePoints).set "signature".codePoints "a=:AA==:".codePoints, []⟩

/-- The conversion of the instant of such a signature is not caught. -/
theorem distant_signature_raises :
    ¬∀ (lower : Text → Text) (sha256 : List UInt8 → Text) (verifier : HttpMessageSignatureVerifier) (request : SignedRequest)
      (now : Int) (store : ReplayStore), (∀ bytes, sha256 bytes ≠ []) →
        Answers lower sha256 verifier request now store ∧ LeavesNoEntry lower sha256 verifier request now store := by
  intro always
  have raises : (verify id distantVerifier (fun _ => [0x61]) distantRequest 1010000000 (.empty 4)).1 =
      .error (.valueError "year is out of range") := by decide +kernel
  rcases (always id (fun _ => [0x61]) distantVerifier distantRequest 1010000000 (.empty 4) (fun _ => List.cons_ne_nil _ _)).1 with
    ⟨answer, answered⟩ | ⟨message, backend⟩
  · rw [raises] at answered
    cases answered
  · cases backend

end HttpMessageSignatureVerifier

end Pytitect
