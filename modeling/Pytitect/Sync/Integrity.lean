import Pytitect.Sync.Conversion

namespace Pytitect.Sync
open Text Wire

/-- `_INTEGRITY_PREFIX` -/
def integrityPrefix : List UInt8 := utf8 "titect-sync/1\x00integrity-sha-256-exact-json-v1\x00".codePoints

/-- What `_page` finds in a page: the envelope, the payload and how many items there are. -/
structure Page where
  envelope : List (Text × ExactTree)
  payload : List (Text × ExactTree)
  count : Nat

/-- `len` of a tuple. -/
def tupleLength (value : ExactTree) : Except WireError Nat :=
  match value with
  | .array values => .ok values.length
  | _ => .error .shape

/-- `_page` -/
def page (value : ExactTree) : Except WireError Page := do
  let envelope ← mapping value
  if ¬isText (lookup envelope "protocol") syncProtocol ∨ ¬isPageKind (lookup envelope "kind") then .error .shape
  else do
    let payload ← mapping (lookup envelope "payload")
    let upserts ← tupleLength (lookup payload "upserts")
    let tombstones ← tupleLength ((payload.lookup "tombstones".codePoints).getD (.array []))
    return ⟨envelope, payload, upserts + tombstones⟩

/-- The payload without its integrity. -/
def withoutIntegrity (payload : List (Text × ExactTree)) : List (Text × ExactTree) :=
  payload.filter fun member => member.1 ≠ "integrity".codePoints

/-- The envelope of a page with another payload. -/
def Page.withPayload (found : Page) (payload : List (Text × ExactTree)) : List (Text × ExactTree) :=
  assign found.envelope "payload" (.object payload)

/-- The bytes that are hashed for a page: all of it but its integrity. -/
def preimage (document : WireDocument) : Except WireError (List UInt8) := do
  let found ← page document.value
  let reduced ← WireDocument.make (.object (found.withPayload (withoutIntegrity found.payload))) document.limits
  let encoded ← reduced.encode
  return integrityPrefix ++ encoded

/-- The members of an integrity object. -/
def integrityMembers (digest : Text) (count : ExactNumber) : List (Text × ExactTree) :=
  [("algorithm".codePoints, .str "sha-256".codePoints), ("digest".codePoints, .str digest),
    ("item_count".codePoints, .number count)]

/-- A page with an integrity object of its own. -/
def Page.sealed (found : Page) (digest : Text) : Page :=
  let payload := assign found.payload "integrity" (.object (integrityMembers digest (JsonValue.intToken found.count)))
  ⟨found.withPayload payload, payload, found.count⟩

/-- `ExactJsonSha256Integrity`. SHA-256 comes from the standard library, as its hexadecimal digest. -/
structure ExactJsonSha256Integrity where
  sha256 : List UInt8 → Text
  hexadecimal : ∀ bytes, isDigest (sha256 bytes) = true

def ExactJsonSha256Integrity.digest (policy : ExactJsonSha256Integrity) (document : WireDocument) : Except WireError Text := do
  return policy.sha256 (← preimage document)

/-- The limits that a sealed page is validated with. -/
def sealedLimits (limits : Limits) : SyncLimits :=
  ⟨limits.maxBodyBytes, SyncLimits.default.maxDatasets, SyncLimits.default.maxItemsPerPage, SyncLimits.default.maxMutations,
    SyncLimits.default.maxOpaqueIdBytes, SyncLimits.default.maxCapabilities, by
      have positive := limits.positive
      have fixed := SyncLimits.default.positive
      omega⟩

def ExactJsonSha256Integrity.seal (policy : ExactJsonSha256Integrity) (document : WireDocument) :
    Except WireError WireDocument := do
  let found ← page document.value
  let digest ← policy.digest document
  let result ← WireDocument.make (.object (found.sealed digest).envelope) document.limits
  validateShape result (sealedLimits document.limits)
  return result

/-- `count_matches` -/
def countMatches (itemCount : ExactTree) (count : Nat) : Bool :=
  match itemCount with
  | .number number =>
    match number.toInt with
    | .ok value => value = count
    | .error _ => false
  | _ => false

/-- The fields of an integrity object are closed. -/
def closedIntegrity (integrity : List (Text × ExactTree)) : Bool :=
  let names := ["algorithm".codePoints, "digest".codePoints, "item_count".codePoints]
  (integrity.map Prod.fst).all (· ∈ names) && names.all (· ∈ integrity.map Prod.fst)

/-- The digest of an integrity object, once everything else of it is checked. -/
def checkedDigest (integrity : List (Text × ExactTree)) (count : Nat) : Option Text :=
  match lookup integrity "digest" with
  | .str digest =>
    if closedIntegrity integrity ∧ isText (lookup integrity "algorithm") "sha-256".codePoints ∧ isDigest digest ∧
      countMatches (lookup integrity "item_count") count then some digest else none
  | _ => none

def ExactJsonSha256Integrity.verify (policy : ExactJsonSha256Integrity) (document : WireDocument) : Except WireError Unit := do
  let found ← page document.value
  match lookup found.payload "integrity" with
  | .object integrity =>
    match checkedDigest integrity found.count with
    | some digest => do
      let expected ← policy.digest document
      if digest = expected then .ok () else .error .integrity
    | none => .error .integrity
  | _ => .error .integrity

section
variable {β γ : Type} {members : List (Text × β)} {name : String} {value : β}

theorem assign_assign {other : β} : assign (assign members name value) name other = assign members name other := by
  by_cases present : name.codePoints ∈ members.map Prod.fst
  · have still : name.codePoints ∈ (assign members name value).map Prod.fst := keys_assign present ▸ present
    rw [assign, if_pos still, assign, if_pos present, assign, if_pos present, List.map_map]
    refine List.map_congr_left fun member _ => ?_
    rw [Function.comp_apply]
    by_cases key : member.1 = name.codePoints
    · rw [if_pos key, if_pos key, if_pos key]
    · rw [if_neg key, if_neg key]
  · have appended : assign members name value = members ++ [(name.codePoints, value)] := if_neg present
    have there : name.codePoints ∈ (members ++ [(name.codePoints, value)]).map Prod.fst := by simp
    rw [appended, assign, if_pos there, assign, if_neg present, List.map_append, List.map_singleton, if_pos rfl]
    refine congrArg (· ++ _) ?_
    conv_rhs => rw [← List.map_id members]
    refine List.map_congr_left fun member found => if_neg fun key => present ?_
    exact key ▸ List.mem_map_of_mem found

theorem assign_distinct (distinct : (members.map Prod.fst).Nodup) : ((assign members name value).map Prod.fst).Nodup := by
  by_cases present : name.codePoints ∈ members.map Prod.fst
  · rw [keys_assign present]
    exact distinct
  · rw [assign, if_neg present, List.map_append, List.map_singleton]
    refine List.nodup_append.mpr ⟨distinct, List.nodup_singleton _, fun key found other same equal => present ?_⟩
    rw [equal, List.mem_singleton.mp same] at found
    exact found

theorem mem_assign {member : Text × β} (found : member ∈ assign members name value) :
    member ∈ members ∨ member = (name.codePoints, value) := by
  unfold assign at found
  split at found
  · obtain ⟨old, there, rfl⟩ := List.mem_map.mp found
    split
    · rename_i key
      exact Or.inr (Prod.ext key rfl)
    · exact Or.inl there
  · rcases List.mem_append.mp found with there | last
    · exact Or.inl there
    · exact Or.inr (List.mem_singleton.mp last)

theorem perm_assign (name : String) (value : β) {others : List (Text × β)} (same : members.Perm others) :
    (assign members name value).Perm (assign others name value) := by
  have keys : name.codePoints ∈ members.map Prod.fst ↔ name.codePoints ∈ others.map Prod.fst := (same.map Prod.fst).mem_iff
  unfold assign
  by_cases present : name.codePoints ∈ members.map Prod.fst
  · rw [if_pos present, if_pos (keys.mp present)]
    exact same.map _
  · rw [if_neg present, if_neg fun there => present (keys.mpr there)]
    exact same.append_right _

theorem map_assign (f : β → γ) : (assign members name value).map (fun member => (member.1, f member.2)) =
    assign (members.map fun member => (member.1, f member.2)) name (f value) := by
  have keys : (members.map fun member => (member.1, f member.2)).map Prod.fst = members.map Prod.fst := by
    rw [List.map_map]
    rfl
  unfold assign
  rw [keys]
  split
  · rw [List.map_map, List.map_map]
    refine List.map_congr_left fun member _ => ?_
    rw [Function.comp_apply, Function.comp_apply]
    split
    · rfl
    · rfl
  · rw [List.map_append]
    rfl

end

section
variable {members : List (Text × ExactTree)} {name : String} {value : ExactTree}

@[simp] theorem lookup_assigned (other : String) :
    lookup (assign members name value) other = if other = name then value else lookup members other := by
  unfold lookup
  rw [lookup_assign]
  by_cases same : other = name
  · rw [if_pos same, same, if_pos rfl, Option.getD_some]
  · rw [if_neg same, if_neg (String.codePoints_injective.ne same)]

theorem proper_assign (proper : (ExactTree.object members).Proper) (inner : value.Proper) :
    (ExactTree.object (assign members name value)).Proper := by
  rw [ExactTree.Proper, ExactTree.properMembers_iff] at proper ⊢
  refine ⟨assign_distinct proper.1, fun member found => ?_⟩
  rcases mem_assign found with there | same
  · exact proper.2 member there
  · rw [same]
    exact inner

theorem proper_filter {test : Text × ExactTree → Bool} (proper : (ExactTree.object members).Proper) :
    (ExactTree.object (members.filter test)).Proper := by
  rw [ExactTree.Proper, ExactTree.properMembers_iff] at proper ⊢
  exact ⟨proper.1.sublist (List.filter_sublist.map _), fun member found => proper.2 member (List.mem_filter.mp found).1⟩

theorem withoutIntegrity_assign : withoutIntegrity (assign members "integrity" value) = withoutIntegrity members := by
  unfold withoutIntegrity assign
  split
  · rename_i present
    clear present
    induction members with
    | nil => rfl
    | cons member rest ih =>
      rw [List.map_cons, List.filter_cons, List.filter_cons, ih]
      by_cases key : member.1 = "integrity".codePoints
      · simp [key]
      · simp [key]
  · rw [List.filter_append, List.filter_singleton]
    simp

end

theorem tupleLength_iff {value : ExactTree} {length : Nat} :
    tupleLength value = .ok length ↔ ∃ values, value = .array values ∧ length = values.length := by
  cases value with
  | array values =>
    rw [tupleLength, Except.ok.injEq]
    exact ⟨fun same => ⟨values, rfl, same.symm⟩, fun ⟨found, same, length⟩ => (by cases same; exact length.symm)⟩
  | _ => exact ⟨fun absurd => (by cases absurd), fun ⟨_, absurd, _⟩ => (by cases absurd)⟩

/-- A page is found exactly when it has the parts of one. -/
theorem page_iff {value : ExactTree} {found : Page} : page value = .ok found ↔
    value = .object found.envelope ∧ lookup found.envelope "protocol" = .str syncProtocol ∧
      isPageKind (lookup found.envelope "kind") = true ∧ lookup found.envelope "payload" = .object found.payload ∧
      ∃ upserts tombstones, lookup found.payload "upserts" = .array upserts ∧
        (found.payload.lookup "tombstones".codePoints).getD (.array []) = .array tombstones ∧
        found.count = upserts.length + tombstones.length := by
  obtain ⟨envelope, payload, count⟩ := found
  rw [page, bind_ok_iff]
  constructor
  · rintro ⟨outer, isObject, passed⟩
    split at passed
    · cases passed
    rename_i header
    rw [not_or, not_not, not_not, isText_iff] at header
    obtain ⟨inner, isPayload, passed⟩ := bind_ok passed
    obtain ⟨first, isUpserts, passed⟩ := bind_ok passed
    obtain ⟨second, areTombstones, passed⟩ := bind_ok passed
    cases passed
    obtain ⟨upserts, isArray, rfl⟩ := tupleLength_iff.mp isUpserts
    obtain ⟨tombstones, isArray', rfl⟩ := tupleLength_iff.mp areTombstones
    exact ⟨mapping_iff.mp isObject, header.1, header.2, mapping_iff.mp isPayload, upserts, tombstones, isArray, isArray', rfl⟩
  · rintro ⟨isObject, isProtocol, kind, isPayload, upserts, tombstones, isArray, isArray', rfl⟩
    refine ⟨envelope, mapping_iff.mpr isObject, ?_⟩
    rw [if_neg (by rw [not_or, not_not, not_not, isText_iff]; exact ⟨isProtocol, kind⟩)]
    refine bind_ok_iff.mpr ⟨payload, mapping_iff.mpr isPayload, bind_ok_iff.mpr ⟨_, tupleLength_iff.mpr ⟨_, isArray, rfl⟩, ?_⟩⟩
    exact bind_ok_iff.mpr ⟨_, tupleLength_iff.mpr ⟨_, isArray', rfl⟩, rfl⟩

theorem page_sealed {value : ExactTree} {found : Page} (digest : Text) (isPage : page value = .ok found) :
    page (.object (found.sealed digest).envelope) = .ok (found.sealed digest) := by
  obtain ⟨-, isProtocol, kind, isPayload, upserts, tombstones, isArray, isArray', count⟩ := page_iff.mp isPage
  refine page_iff.mpr ⟨rfl, ?_, ?_, ?_, upserts, tombstones, ?_, ?_, count⟩
  · simpa [Page.sealed, Page.withPayload] using isProtocol
  · simpa [Page.sealed, Page.withPayload] using kind
  · simp [Page.sealed, Page.withPayload]
  · simpa [Page.sealed] using isArray
  · dsimp only [Page.sealed]
    rwa [lookup_assign, if_neg (String.codePoints_injective.ne (by decide))]

theorem withPayload_sealed (found : Page) (digest : Text) (payload : List (Text × ExactTree)) :
    (found.sealed digest).withPayload payload = found.withPayload payload := assign_assign

theorem sealed_sealed (found : Page) (digest : Text) : (found.sealed digest).sealed digest = found.sealed digest := by
  have same : assign (found.sealed digest).payload "integrity"
      (.object (integrityMembers digest (JsonValue.intToken (found.sealed digest).count))) = (found.sealed digest).payload :=
    assign_assign
  rw [Page.sealed, same, withPayload_sealed]
  rfl

theorem preimage_iff {document : WireDocument} {bytes : List UInt8} : preimage document = .ok bytes ↔
    ∃ found reduced encoded, page document.value = .ok found ∧
      WireDocument.make (.object (found.withPayload (withoutIntegrity found.payload))) document.limits = .ok reduced ∧
      reduced.encode = .ok encoded ∧ bytes = integrityPrefix ++ encoded := by
  simp only [preimage, bind_ok_iff]
  constructor
  · rintro ⟨found, isPage, reduced, made, encoded, isBytes, passed⟩
    exact ⟨found, reduced, encoded, isPage, made, isBytes, (Except.ok.inj passed).symm⟩
  · rintro ⟨found, reduced, encoded, isPage, made, isBytes, rfl⟩
    exact ⟨found, isPage, reduced, made, encoded, isBytes, rfl⟩

/-- What is hashed does not depend on the integrity. -/
theorem preimage_sealed {document : WireDocument} {found : Page} (digest : Text) (isPage : page document.value = .ok found) :
    preimage ⟨.object (found.sealed digest).envelope, document.limits⟩ = preimage document := by
  have same : withoutIntegrity (found.sealed digest).payload = withoutIntegrity found.payload := withoutIntegrity_assign
  rw [preimage, preimage, isPage, page_sealed digest isPage]
  change (WireDocument.make (.object ((found.sealed digest).withPayload (withoutIntegrity (found.sealed digest).payload))) _ >>= _) =
    (WireDocument.make _ _ >>= _)
  rw [same, withPayload_sealed]

section
variable {policy : ExactJsonSha256Integrity} {document sealed : WireDocument}

theorem digest_iff {digest : Text} :
    policy.digest document = .ok digest ↔ ∃ bytes, preimage document = .ok bytes ∧ digest = policy.sha256 bytes := by
  rw [ExactJsonSha256Integrity.digest, bind_ok_iff]
  constructor
  · rintro ⟨bytes, hashed, passed⟩
    exact ⟨bytes, hashed, (Except.ok.inj passed).symm⟩
  · rintro ⟨bytes, hashed, rfl⟩
    exact ⟨bytes, hashed, rfl⟩

theorem seal_iff : policy.seal document = .ok sealed ↔ ∃ found bytes, page document.value = .ok found ∧
    preimage document = .ok bytes ∧
    WireDocument.make (.object (found.sealed (policy.sha256 bytes)).envelope) document.limits = .ok sealed ∧
    validateShape sealed (sealedLimits document.limits) = .ok () := by
  simp only [ExactJsonSha256Integrity.seal, bind_ok_iff, digest_iff]
  constructor
  · rintro ⟨found, isPage, digest, ⟨bytes, hashed, rfl⟩, result, made, ⟨⟩, shaped, passed⟩
    cases passed
    exact ⟨found, bytes, isPage, hashed, made, shaped⟩
  · rintro ⟨found, bytes, isPage, hashed, made, shaped⟩
    exact ⟨found, isPage, _, ⟨bytes, hashed, rfl⟩, sealed, made, (), shaped, rfl⟩

theorem checkedDigest_iff {integrity : List (Text × ExactTree)} {count : Nat} {digest : Text} :
    checkedDigest integrity count = some digest ↔ closedIntegrity integrity = true ∧
      lookup integrity "algorithm" = .str "sha-256".codePoints ∧ lookup integrity "digest" = .str digest ∧
      isDigest digest = true ∧ ∃ n : ExactNumber, lookup integrity "item_count" = .number n ∧ n.toInt = .ok (count : Int) := by
  have counts : countMatches (lookup integrity "item_count") count = true ↔
      ∃ n : ExactNumber, lookup integrity "item_count" = .number n ∧ n.toInt = .ok (count : Int) := by
    unfold countMatches
    cases lookup integrity "item_count" with
    | number n =>
      dsimp only
      cases read : n.toInt with
      | ok value =>
        simp [read]
      | error error => simp [read]
    | _ => simp
  unfold checkedDigest
  cases lookup integrity "digest" with
  | str found =>
    dsimp only
    rw [← counts, ← isText_iff]
    constructor
    · intro passed
      split at passed
      · rename_i holds
        cases passed
        exact ⟨holds.1, holds.2.1, rfl, holds.2.2.1, holds.2.2.2⟩
      · cases passed
    · rintro ⟨closed, algorithm, same, hexadecimal, number⟩
      cases same
      exact if_pos ⟨closed, algorithm, hexadecimal, number⟩
  | _ => simp

theorem verify_iff {done : Unit} : policy.verify document = .ok done ↔ ∃ found integrity bytes,
    page document.value = .ok found ∧ lookup found.payload "integrity" = .object integrity ∧
      preimage document = .ok bytes ∧ checkedDigest integrity found.count = some (policy.sha256 bytes) := by
  rw [ExactJsonSha256Integrity.verify, bind_ok_iff]
  constructor
  · rintro ⟨found, isPage, passed⟩
    split at passed
    · rename_i integrity isObject
      split at passed
      · rename_i digest checked
        obtain ⟨expected, hashed, passed⟩ := bind_ok passed
        obtain ⟨bytes, isBytes, rfl⟩ := digest_iff.mp hashed
        split at passed
        · rename_i same
          exact ⟨found, integrity, bytes, isPage, isObject, isBytes, same ▸ checked⟩
        · cases passed
      · cases passed
    · cases passed
  · rintro ⟨found, integrity, bytes, isPage, isObject, isBytes, checked⟩
    refine ⟨found, isPage, ?_⟩
    rw [isObject]
    dsimp only
    rw [checked]
    exact bind_ok_iff.mpr ⟨_, digest_iff.mpr ⟨bytes, isBytes, rfl⟩, if_pos rfl⟩

end

/-- An object with these members, in whatever order. -/
def IsObject (value : ExactTree) (members : List (Text × ExactTree)) : Prop :=
  ∃ found, value = .object found ∧ found.Perm members

section
variable {members others : List (Text × ExactTree)}

theorem lookup_of_perm (distinct : (members.map Prod.fst).Nodup) (same : members.Perm others) {name : String}
    {value : ExactTree} (there : (name.codePoints, value) ∈ others) : lookup members name = value :=
  lookup_of_mem distinct (same.mem_iff.mpr there) rfl

theorem integrityMembers_distinct (digest : Text) (n : ExactNumber) : ((integrityMembers digest n).map Prod.fst).Nodup := by
  change ["algorithm".codePoints, "digest".codePoints, "item_count".codePoints].Nodup
  decide

/-- What is checked of the members of an integrity object is what they are. -/
theorem integrity_perm (distinct : (members.map Prod.fst).Nodup) {digest : Text} {n : ExactNumber} :
    members.Perm (integrityMembers digest n) ↔ closedIntegrity members = true ∧
      lookup members "algorithm" = .str "sha-256".codePoints ∧ lookup members "digest" = .str digest ∧
      lookup members "item_count" = .number n := by
  constructor
  · intro same
    refine ⟨?_, lookup_of_perm distinct same (by simp [integrityMembers]), lookup_of_perm distinct same (by simp [integrityMembers]),
      lookup_of_perm distinct same (by simp [integrityMembers])⟩
    have keys := same.map Prod.fst
    unfold closedIntegrity
    dsimp only
    rw [Bool.and_eq_true, List.all_eq_true, List.all_eq_true]
    simp only [decide_eq_true_iff]
    exact ⟨fun key found => keys.mem_iff.mp found, fun key found => keys.mem_iff.mpr found⟩
  · rintro ⟨closed, algorithm, isDigest, count⟩
    unfold closedIntegrity at closed
    dsimp only at closed
    rw [Bool.and_eq_true, List.all_eq_true, List.all_eq_true] at closed
    simp only [decide_eq_true_iff] at closed
    have there : ∀ name : String, name.codePoints ∈ members.map Prod.fst → (name.codePoints, lookup members name) ∈ members := by
      intro name present
      obtain ⟨member, found, key⟩ := List.mem_map.mp present
      rw [lookup_of_mem distinct found key, ← key]
      exact found
    refine (List.perm_ext_iff_of_nodup (List.Nodup.of_map _ distinct)
      (List.Nodup.of_map _ (integrityMembers_distinct digest n))).mpr fun member => ?_
    constructor
    · intro found
      have key := closed.1 _ (List.mem_map_of_mem found)
      simp only [List.mem_cons, List.not_mem_nil, or_false] at key
      rcases key with key | key | key
      · have value := (lookup_of_mem distinct found key).symm.trans algorithm
        have same : member = ("algorithm".codePoints, .str "sha-256".codePoints) := Prod.ext key value
        simp [integrityMembers, same]
      · have value := (lookup_of_mem distinct found key).symm.trans isDigest
        have same : member = ("digest".codePoints, .str digest) := Prod.ext key value
        simp [integrityMembers, same]
      · have value := (lookup_of_mem distinct found key).symm.trans count
        have same : member = ("item_count".codePoints, .number n) := Prod.ext key value
        simp [integrityMembers, same]
    · intro found
      simp only [integrityMembers, List.mem_cons, List.not_mem_nil, or_false] at found
      rcases found with rfl | rfl | rfl
      · exact algorithm ▸ there "algorithm" (closed.2 _ (by simp))
      · exact isDigest ▸ there "digest" (closed.2 _ (by simp))
      · exact count ▸ there "item_count" (closed.2 _ (by simp))

end

/-- A value with its key, in its canonical form. -/
abbrev canonicalMember (member : Text × ExactTree) : Text × ExactTree := (member.1, member.2.canonical)

section
variable {members others : List (Text × ExactTree)} {name : String}

theorem mem_of_lookup {value : ExactTree} (there : lookup members name = value) (some : value ≠ .null) :
    (name.codePoints, value) ∈ members := by
  rcases lookup_cases members name with ⟨found, member, same⟩ | ⟨-, null⟩
  · rw [← there, same]
    exact member
  · exact absurd (there.symm.trans null) some

/-- The values that two lists of members have under a name are the same. -/
theorem value_of_perm {value other : ExactTree} (distinct : (others.map Prod.fst).Nodup)
    (same : (members.map canonicalMember).Perm (others.map canonicalMember)) (first : (name.codePoints, value) ∈ members)
    (second : (name.codePoints, other) ∈ others) : value.canonical = other.canonical := by
  have keys : ((others.map canonicalMember).map Prod.fst).Nodup := by
    rw [List.map_map]
    exact distinct
  have left := same.mem_iff.mp (List.mem_map_of_mem first)
  have right := List.mem_map_of_mem (f := canonicalMember) second
  exact congrArg Prod.snd (List.inj_on_of_nodup_map keys left right rfl)

/-- Members that agree but for one name agree when they agree at that name. -/
theorem perm_of_assigned {value other new new' : ExactTree} (here : lookup members name = value) (some : value ≠ .null)
    (there : lookup others name = other) (some' : other ≠ .null) (distinct : (members.map Prod.fst).Nodup)
    (distinct' : (others.map Prod.fst).Nodup) (agree : value.canonical = other.canonical)
    (same : ((assign members name new).map canonicalMember).Perm ((assign others name new').map canonicalMember)) :
    (members.map canonicalMember).Perm (others.map canonicalMember) := by
  have again : ∀ {members : List (Text × ExactTree)} {value new : ExactTree}, lookup members name = value → value ≠ .null →
      (members.map Prod.fst).Nodup →
      assign ((assign members name new).map canonicalMember) name value.canonical = members.map canonicalMember := by
    intro members value new there some distinct
    have present : name.codePoints ∈ members.map Prod.fst := List.mem_map_of_mem (mem_of_lookup there some)
    rw [map_assign, assign_assign, ← map_assign, ← there, assign_lookup distinct present]
  have whole := perm_assign name value.canonical same
  rw [again here some distinct, agree, again there some' distinct'] at whole
  exact whole

theorem perm_withoutIntegrity {value : ExactTree} (distinct : (members.map Prod.fst).Nodup)
    (there : ("integrity".codePoints, value) ∈ members) :
    members.Perm (("integrity".codePoints, value) :: withoutIntegrity members) := by
  have rest : (withoutIntegrity members).Nodup := (List.Nodup.of_map _ distinct).filter _
  have absent : ("integrity".codePoints, value) ∉ withoutIntegrity members := by simp [withoutIntegrity]
  refine (List.perm_ext_iff_of_nodup (List.Nodup.of_map _ distinct) (List.nodup_cons.mpr ⟨absent, rest⟩)).mpr fun member => ?_
  rw [List.mem_cons, withoutIntegrity, List.mem_filter, decide_eq_true_iff]
  constructor
  · intro found
    by_cases key : member.1 = "integrity".codePoints
    · exact Or.inl (List.inj_on_of_nodup_map distinct found there key)
    · exact Or.inr ⟨found, key⟩
  · rintro (rfl | ⟨found, -⟩)
    · exact there
    · exact found

end

/-- Pages with one integrity and with one hashed value have one value. -/
theorem canonical_of_reduced {first second : ExactTree} {found other : Page} (proper : first.Proper) (proper' : second.Proper)
    (isPage : page first = .ok found) (isPage' : page second = .ok other)
    (integrity : (lookup found.payload "integrity").canonical = (lookup other.payload "integrity").canonical)
    (some : lookup found.payload "integrity" ≠ .null) (some' : lookup other.payload "integrity" ≠ .null)
    (reduced : (ExactTree.object (found.withPayload (withoutIntegrity found.payload))).canonical =
      (ExactTree.object (other.withPayload (withoutIntegrity other.payload))).canonical) :
    first.canonical = second.canonical := by
  obtain ⟨rfl, -, -, isPayload, -⟩ := page_iff.mp isPage
  obtain ⟨rfl, -, -, isPayload', -⟩ := page_iff.mp isPage'
  have payloadProper := proper_field proper "payload"
  have payloadProper' := proper_field proper' "payload"
  rw [isPayload, ExactTree.Proper] at payloadProper
  rw [isPayload', ExactTree.Proper] at payloadProper'
  rw [ExactTree.Proper] at proper proper'
  have outer := (ExactTree.canonical_object_iff (assign_distinct proper.1)).mp reduced
  have hashed : ∀ page : Page, ("payload".codePoints, ExactTree.object (withoutIntegrity page.payload)) ∈
      page.withPayload (withoutIntegrity page.payload) := by
    intro page
    refine mem_of_lookup ?_ ExactTree.noConfusion
    simp [Page.withPayload]
  have inner := value_of_perm (assign_distinct proper'.1) outer (hashed found) (hashed other)
  have distinct : ((withoutIntegrity found.payload).map Prod.fst).Nodup := payloadProper.1.sublist (List.filter_sublist.map _)
  rw [ExactTree.canonical_object_iff distinct] at inner
  have payload : (ExactTree.object found.payload).canonical = (ExactTree.object other.payload).canonical := by
    rw [ExactTree.canonical_object_iff payloadProper.1]
    refine ((perm_withoutIntegrity payloadProper.1 (mem_of_lookup rfl some)).map canonicalMember).trans
      (List.Perm.trans ?_ ((perm_withoutIntegrity payloadProper'.1 (mem_of_lookup rfl some')).map canonicalMember).symm)
    rw [List.map_cons, List.map_cons, canonicalMember, canonicalMember, integrity]
    exact inner.cons _
  rw [ExactTree.canonical_object_iff proper.1]
  exact perm_of_assigned isPayload ExactTree.noConfusion isPayload' ExactTree.noConfusion proper.1 proper'.1 payload outer

/-- The integrity of a page. -/
def integrityOf (value : ExactTree) : ExactTree :=
  match value with
  | .object envelope =>
    match lookup envelope "payload" with
    | .object payload => lookup payload "integrity"
    | _ => .null
  | _ => .null

theorem integrityOf_page {value : ExactTree} {found : Page} (isPage : page value = .ok found) :
    integrityOf value = lookup found.payload "integrity" := by
  obtain ⟨rfl, -, -, isPayload, -⟩ := page_iff.mp isPage
  unfold integrityOf
  dsimp only
  rw [isPayload]

/-- No two different preimages of these documents have one digest. -/
def NoCollision (policy : ExactJsonSha256Integrity) (first second : WireDocument) : Prop :=
  ∀ bytes other, preimage first = .ok bytes → preimage second = .ok other → policy.sha256 bytes = policy.sha256 other →
    bytes = other

section
variable {policy : ExactJsonSha256Integrity} {document : WireDocument}

theorem proper_payload {found : Page} (proper : document.value.Proper) (isPage : page document.value = .ok found) :
    (ExactTree.object found.payload).Proper := by
  obtain ⟨isObject, -, -, isPayload, -⟩ := page_iff.mp isPage
  rw [isObject] at proper
  exact isPayload ▸ proper_field proper "payload"

/-- A page is verified exactly when its integrity object is made of its own digest and a
token of its own count. -/
theorem verify_object_iff {found : Page} {bytes : List UInt8} (proper : document.value.Proper)
    (isPage : page document.value = .ok found) (hashed : preimage document = .ok bytes) :
    policy.verify document = .ok () ↔ ∃ n : ExactNumber, n.toInt = .ok (found.count : Int) ∧
      IsObject (integrityOf document.value) (integrityMembers (policy.sha256 bytes) n) := by
  have payload := proper_payload proper isPage
  rw [integrityOf_page isPage, verify_iff]
  constructor
  · rintro ⟨other, integrity, bytes', isPage', isObject, hashed', checked⟩
    rw [isPage] at isPage'
    cases isPage'
    rw [hashed] at hashed'
    cases hashed'
    have distinct := isObject ▸ proper_field payload "integrity"
    obtain ⟨closed, algorithm, isDigest, -, n, count, read⟩ := checkedDigest_iff.mp checked
    exact ⟨n, read, integrity, isObject, (integrity_perm distinct.1).mpr ⟨closed, algorithm, isDigest, count⟩⟩
  · rintro ⟨n, read, integrity, isObject, same⟩
    have distinct := isObject ▸ proper_field payload "integrity"
    obtain ⟨closed, algorithm, isDigest, count⟩ := (integrity_perm distinct.1).mp same
    exact ⟨found, integrity, bytes, isPage, isObject, hashed, checkedDigest_iff.mpr
      ⟨closed, algorithm, isDigest, policy.hexadecimal bytes, n, count, read⟩⟩

theorem reduced_proper {found : Page} (proper : document.value.Proper) (isPage : page document.value = .ok found) :
    (ExactTree.object (found.withPayload (withoutIntegrity found.payload))).Proper := by
  have payload := proper_payload proper isPage
  rw [(page_iff.mp isPage).1] at proper
  exact proper_assign proper (proper_filter payload)

theorem sealed_proper {found : Page} (digest : Text) (proper : document.value.Proper) (isPage : page document.value = .ok found) :
    (ExactTree.object (found.sealed digest).envelope).Proper := by
  have payload := proper_payload proper isPage
  have inner : (ExactTree.object (integrityMembers digest (JsonValue.intToken found.count))).Proper :=
    ⟨integrityMembers_distinct _ _, trivial, trivial, trivial, trivial⟩
  rw [(page_iff.mp isPage).1] at proper
  exact proper_assign proper (proper_assign payload inner)

/-- Pages that hash the same bytes and have one integrity are equal. -/
theorem equal_of_preimage {other : WireDocument} {bytes : List UInt8} (proper : document.value.Proper)
    (proper' : other.value.Proper) (hashed : preimage document = .ok bytes) (hashed' : preimage other = .ok bytes)
    (integrity : (integrityOf document.value).canonical = (integrityOf other.value).canonical)
    (some : integrityOf document.value ≠ .null) (some' : integrityOf other.value ≠ .null) :
    document.value.equal other.value = true := by
  obtain ⟨found, reduced, encoded, isPage, made, isBytes, rfl⟩ := preimage_iff.mp hashed
  obtain ⟨found', reduced', encoded', isPage', made', isBytes', same⟩ := preimage_iff.mp hashed'
  rw [List.append_cancel_left same] at isBytes
  rw [integrityOf_page isPage] at integrity some
  rw [integrityOf_page isPage'] at integrity some'
  have canonical := @canonical_of_bytes ⟨_, reduced_proper proper isPage⟩ ⟨_, reduced_proper proper' isPage'⟩ _ _ _ _ _
    made made' isBytes isBytes'
  exact ExactTree.equal_of_canonical proper' (canonical_of_reduced proper proper' isPage isPage' integrity some some' canonical)

/-- The integrity object that sealing writes. -/
theorem integrityOf_sealed {sealed : WireDocument} {found : Page} {digest : Text} (proper : document.value.Proper)
    (isPage : page document.value = .ok found)
    (made : WireDocument.make (.object (found.sealed digest).envelope) document.limits = .ok sealed) :
    integrityOf sealed.value = .object (integrityMembers digest (JsonValue.intToken found.count)) := by
  obtain ⟨rfl, -, -⟩ := (WireDocument.make_iff (sealed_proper digest proper isPage)).mp made
  rw [integrityOf_page (page_sealed digest isPage)]
  simp [Page.sealed]

end

/-- A sealed page is verified and is sealed already. A page is verified exactly when it has
the integrity object that sealing writes, in which zero items may also be written with a
sign. No other page with the same integrity object is verified. -/
theorem page_integrity_is_exact (policy : ExactJsonSha256Integrity) (value : ExactValue) (limits : Limits)
    (document sealed : WireDocument) (made : WireDocument.make value.tree limits = .ok document)
    (seals : policy.seal document = .ok sealed) :
    policy.verify sealed = .ok () ∧ policy.seal sealed = .ok sealed ∧
      ∃ digest, ∃ count : Nat, integrityOf sealed.value = .object (integrityMembers digest (JsonValue.intToken count)) ∧
        (policy.verify document = .ok () ↔ ∃ n : ExactNumber,
          (n = JsonValue.intToken count ∨ count = 0 ∧ n.token = "-0".codePoints) ∧
            IsObject (integrityOf document.value) (integrityMembers digest n)) ∧
        ∀ (other : ExactValue) (wide : Limits) (tampered : WireDocument), WireDocument.make other.tree wide = .ok tampered →
          NoCollision policy sealed tampered →
          IsObject (integrityOf tampered.value) (integrityMembers digest (JsonValue.intToken count)) →
          sealed.value.equal tampered.value = false → policy.verify tampered ≠ .ok () := by
  obtain ⟨rfl, -, -⟩ := (WireDocument.make_iff value.proper).mp made
  obtain ⟨found, bytes, isPage, hashed, remade, shaped⟩ := seal_iff.mp seals
  have proper := @sealed_proper ⟨value.tree, limits⟩ found (policy.sha256 bytes) value.proper isPage
  have integrity := @integrityOf_sealed ⟨value.tree, limits⟩ _ _ _ value.proper isPage remade
  obtain ⟨rfl, -, -⟩ := (WireDocument.make_iff proper).mp remade
  have isPage' := page_sealed (policy.sha256 bytes) isPage
  have hashed' := (preimage_sealed (policy.sha256 bytes) isPage).trans hashed
  refine ⟨?_, ?_, policy.sha256 bytes, found.count, integrity, ?_, ?_⟩
  · exact (@verify_object_iff policy ⟨_, limits⟩ (found.sealed (policy.sha256 bytes)) bytes proper isPage' hashed').mpr
      ⟨_, toInt_natural.mpr (Or.inl rfl), _, integrity, List.Perm.refl _⟩
  · exact seal_iff.mpr ⟨_, bytes, isPage', hashed', (sealed_sealed found (policy.sha256 bytes)).symm ▸ remade, shaped⟩
  · rw [verify_object_iff value.proper isPage hashed]
    simp only [toInt_natural]
    exact Iff.rfl
  · intro other wide tampered made' collision same different verified
    obtain ⟨found', object, bytes', isPage'', isObject, hashed'', checked⟩ := verify_iff.mp verified
    obtain ⟨rfl, -, -⟩ := (WireDocument.make_iff other.proper).mp made'
    obtain ⟨members, isMembers, permuted⟩ := same
    rw [integrityOf_page isPage''] at isMembers
    have distinct := isObject ▸ proper_field (proper_payload other.proper isPage'') "integrity"
    rw [isObject, ExactTree.object.injEq] at isMembers
    subst isMembers
    have one := ((integrity_perm distinct.1).mp permuted).2.2.1
    have two := (checkedDigest_iff.mp checked).2.2.1
    rw [one, ExactTree.str.injEq] at two
    have sameBytes := collision bytes bytes' hashed' hashed'' two
    subst sameBytes
    have canonical : (integrityOf (.object (found.sealed (policy.sha256 bytes)).envelope)).canonical =
        (integrityOf other.tree).canonical := by
      rw [integrity, integrityOf_page isPage'', isObject, ExactTree.canonical_object_iff (integrityMembers_distinct _ _)]
      exact (permuted.map canonicalMember).symm
    have equal := equal_of_preimage proper other.proper hashed' hashed'' canonical
      (by rw [integrity]; exact ExactTree.noConfusion)
      (by rw [integrityOf_page isPage'', isObject]; exact ExactTree.noConfusion)
    rw [different] at equal
    cases equal

/-- The SHA-256 digest of an empty page of the dataset `d`. -/
def emptyDigest : Text := "94b30c88ffe5f880f37c3e918699eb84845c48eb4df2610b53a46a316ac11869".codePoints

/-- SHA-256 on the one page that is hashed here. -/
def emptyPolicy : ExactJsonSha256Integrity := ⟨fun _ => emptyDigest, fun _ => by decide⟩

/-- An empty page of the dataset `d` with an integrity. -/
def emptyPage (integrity : ExactTree) : ExactTree :=
  exactly [("protocol", .str syncProtocol), ("kind", .str "snapshot".codePoints), ("payload", exactly
    [("dataset_id", .str "d".codePoints), ("generation", .number (JsonValue.intToken 0)), ("upserts", .array []),
      ("next_cursor", .null), ("integrity", integrity)])]

theorem emptyPage_proper {integrity : ExactTree} (proper : integrity.Proper) : (emptyPage integrity).Proper := by
  simp only [emptyPage, exactly, ExactTree.Proper, ExactTree.ProperMembers, ExactTree.ProperAll, List.map_cons, List.map_nil,
    and_true, proper]
  decide

theorem lookup_exactly (name key : String) (found : ExactTree) (rest : List (String × ExactTree)) :
    lookup (((key, found) :: rest).map fun entry => (entry.1.codePoints, entry.2)) name =
      if key = name then found else lookup (rest.map fun entry => (entry.1.codePoints, entry.2)) name := by
  unfold lookup
  rw [List.map_cons, List.lookup_cons]
  by_cases same : key = name
  · rw [same, if_pos rfl, beq_self_eq_true]
    rfl
  · have apart : (name.codePoints == key.codePoints) = false := by
      rw [beq_eq_false_iff_ne]
      exact String.codePoints_injective.ne (Ne.symm same)
    rw [apart, if_neg same]

theorem integrityOf_emptyPage (integrity : ExactTree) : integrityOf (emptyPage integrity) = integrity := by
  unfold integrityOf emptyPage exactly
  simp only [lookup_exactly, String.reduceEq, if_true, if_false]

/-- `-0` -/
def minusZero : ExactNumber := ⟨[0x2d, 0x30], by decide⟩

/-- The empty page with its digest and a count of minus zero. -/
def signedZeroPage : ExactTree := emptyPage (.object (integrityMembers emptyDigest minusZero))

theorem signedZeroPage_proper : signedZeroPage.Proper :=
  emptyPage_proper ⟨integrityMembers_distinct _ _, trivial, trivial, trivial, trivial⟩

/-- The document of a tree, and the page that is sealed from it. -/
def sealedOf (tree : ExactTree) : Except WireError WireDocument := do
  let document ← WireDocument.make tree .default
  emptyPolicy.seal document

theorem sealedOf_ok (tree : ExactTree) (accepted : (sealedOf tree).isOk = true) :
    ∃ document sealed, WireDocument.make tree .default = .ok document ∧ emptyPolicy.seal document = .ok sealed := by
  cases found : sealedOf tree with
  | error error =>
    rw [found] at accepted
    cases accepted
  | ok sealed =>
    obtain ⟨document, made, seals⟩ := bind_ok found
    exact ⟨document, sealed, made, seals⟩

theorem empty_page_is_sealed : ∃ document sealed, WireDocument.make (emptyPage .null) .default = .ok document ∧
    emptyPolicy.seal document = .ok sealed ∧ emptyPolicy.verify sealed = .ok () ∧ emptyPolicy.seal sealed = .ok sealed := by
  obtain ⟨document, sealed, made, seals⟩ := sealedOf_ok (emptyPage .null) (by decide +kernel)
  have sealedPage := page_integrity_is_exact emptyPolicy ⟨emptyPage .null, emptyPage_proper trivial⟩ .default document sealed made seals
  exact ⟨document, sealed, made, seals, sealedPage.1, sealedPage.2.1⟩

/-- A count of minus zero is verified, though sealing writes another one. -/
theorem signed_zero_is_verified : ¬∀ (policy : ExactJsonSha256Integrity) (value : ExactValue) (limits : Limits)
    (document sealed : WireDocument) (members : List (Text × ExactTree)),
    WireDocument.make value.tree limits = .ok document → policy.seal document = .ok sealed →
    integrityOf sealed.value = .object members →
    (policy.verify document = .ok () ↔ IsObject (integrityOf document.value) members) := by
  intro claimed
  obtain ⟨document, sealed, made, seals⟩ := sealedOf_ok signedZeroPage (by decide +kernel)
  have isDocument := ((WireDocument.make_iff signedZeroPage_proper).mp made).1
  obtain ⟨found, bytes, isPage, hashed, remade, -⟩ := seal_iff.mp seals
  have verified : emptyPolicy.verify document = .ok () := by
    rw [isDocument]
    have passes : (emptyPolicy.verify ⟨signedZeroPage, .default⟩).isOk = true := by decide +kernel
    cases answer : emptyPolicy.verify ⟨signedZeroPage, .default⟩ with
    | ok done => rfl
    | error error =>
      rw [answer] at passes
      cases passes
  have integrity := integrityOf_sealed (isDocument ▸ signedZeroPage_proper) isPage remade
  obtain ⟨members, isMembers, same⟩ := (claimed emptyPolicy ⟨signedZeroPage, signedZeroPage_proper⟩ .default document sealed _ made
    seals integrity).mp verified
  rw [isDocument, signedZeroPage, integrityOf_emptyPage, ExactTree.object.injEq] at isMembers
  subst isMembers
  have distinct := integrityMembers_distinct emptyDigest minusZero
  have written := ((integrity_perm distinct).mp same).2.2.2
  rw [((integrity_perm distinct).mp (List.Perm.refl _)).2.2.2, ExactTree.number.injEq] at written
  have token : [0x2d, 0x30] = Decimal.numeral found.count := by
    have whole := congrArg ExactNumber.token written
    change [0x2d, 0x30] = Decimal.signed found.count at whole
    rwa [Decimal.signed, if_neg (by omega), Int.natAbs_natCast] at whole
  exact (numeral_not_sign found.count).1 (by rw [← token]; rfl)

end Pytitect.Sync
