import Pytitect.Sync.Bijection
import Pytitect.Sync.Negotiation

namespace Pytitect.Sync
open Wire

section
variable {β γ : Type} {members : List (Text × β)} {name : String} {value : β}

theorem lookup_replaced {key other : Text} :
    (members.map fun member => if member.1 = other then (member.1, value) else member).lookup key =
      if key = other ∧ other ∈ members.map Prod.fst then some value else members.lookup key := by
  induction members with
  | nil => simp
  | cons member rest ih =>
    obtain ⟨found, old⟩ := member
    rw [List.map_cons, List.map_cons, List.lookup_cons]
    by_cases same : key = found
    · subst same
      by_cases here : key = other
      · simp [here]
      · simp [here]
    · have apart : (key == found) = false := beq_eq_false_iff_ne.mpr same
      have kept : (if found = other then (found, value) else (found, old)).1 = found := by
        split
        · rfl
        · rfl
      have member : key = other ∧ other ∈ found :: rest.map Prod.fst ↔ key = other ∧ other ∈ rest.map Prod.fst := by
        rw [List.mem_cons]
        constructor
        · rintro ⟨rfl, first | later⟩
          · exact absurd first same
          · exact ⟨rfl, later⟩
        · exact fun holds => ⟨holds.1, Or.inr holds.2⟩
      rw [kept, apart, ih, List.lookup_cons, apart]
      simp only [member]

/-- An assignment changes exactly one member. -/
theorem lookup_assign {key : Text} :
    (assign members name value).lookup key = if key = name.codePoints then some value else members.lookup key := by
  unfold assign
  split
  · rename_i present
    rw [lookup_replaced]
    simp only [present, and_true]
  · rename_i absent
    rw [List.lookup_append]
    by_cases same : key = name.codePoints
    · have unknown : members.lookup key = none := by
        rw [List.lookup_eq_none_iff]
        intro member found
        rw [same, bne_iff_ne]
        exact fun equal => absent (List.mem_map.mpr ⟨member, found, equal.symm⟩)
      rw [unknown, if_pos same, same]
      simp
    · rw [if_neg same]
      have apart : (key == name.codePoints) = false := beq_eq_false_iff_ne.mpr same
      rw [List.lookup_cons, apart]
      exact Option.or_none

theorem keys_assign (present : name.codePoints ∈ members.map Prod.fst) :
    (assign members name value).map Prod.fst = members.map Prod.fst := by
  unfold assign
  rw [if_pos present, List.map_map]
  refine List.map_congr_left fun member _ => ?_
  rw [Function.comp_apply]
  split
  · rfl
  · rfl

/-- What relates the members of two objects relates them after an assignment. -/
theorem forall₂_assign (name : String) {R : β → γ → Prop} {others : List (Text × γ)} {other : γ}
    (all : List.Forall₂ (fun member found => member.1 = found.1 ∧ R member.2 found.2) members others) (related : R value other) :
    List.Forall₂ (fun member found => member.1 = found.1 ∧ R member.2 found.2) (assign members name value)
      (assign others name other) := by
  have keys : members.map Prod.fst = others.map Prod.fst := by
    induction all with
    | nil => rfl
    | cons found _ ih => rw [List.map_cons, List.map_cons, found.1, ih]
  unfold assign
  rw [keys]
  split
  · clear keys
    rw [List.forall₂_map_left_iff, List.forall₂_map_right_iff]
    refine all.imp fun member found same => ?_
    rw [same.1]
    split
    · exact ⟨rfl, related⟩
    · exact same
  · exact List.rel_append all (.cons ⟨rfl, related⟩ .nil)

end

section
variable {members : List (Text × JsonValue)} {name : String} {value : JsonValue}

theorem item_assign (other : String) :
    item (assign members name value) other = if other = name then value else item members other := by
  unfold item JsonValue.get
  rw [lookup_assign]
  by_cases same : other = name
  · rw [if_pos same, same, if_pos rfl]
    rfl
  · rw [if_neg same, if_neg (String.codePoints_injective.ne same)]

/-- What is not null is there. -/
theorem item_present (some : item members name ≠ .null) : name.codePoints ∈ members.map Prod.fst := by
  by_contra absent
  apply some
  have unknown : members.lookup name.codePoints = none := by
    rw [List.lookup_eq_none_iff]
    intro member found
    rw [bne_iff_ne]
    exact fun equal => absent (List.mem_map.mpr ⟨member, found, equal.symm⟩)
  unfold item JsonValue.get
  rw [unknown]
  rfl

end

section
variable {number : ExactNumber → Except WireError JsonValue} {members : List (Text × ExactTree)}
  {others : List (Text × JsonValue)}

/-- How the members of an object were converted. -/
def Converted (number : ExactNumber → Except WireError JsonValue) (members : List (Text × ExactTree))
    (others : List (Text × JsonValue)) : Prop :=
  List.Forall₂ (fun member other => member.1 = other.1 ∧ convert number member.2 = .ok other.2) members others

theorem Converted.keys (all : Converted number members others) : members.map Prod.fst = others.map Prod.fst := by
  induction all with
  | nil => rfl
  | cons found _ ih => rw [List.map_cons, List.map_cons, found.1, ih]

theorem Converted.lookup (all : Converted number members others) (name : String) :
    convert number (Sync.lookup members name) = .ok (item others name) := by
  unfold Sync.lookup item JsonValue.get
  induction all with
  | nil => rfl
  | @cons member other _ _ found _ ih =>
    obtain ⟨key, value⟩ := member
    obtain ⟨key', value'⟩ := other
    obtain ⟨rfl, read⟩ := found
    rw [List.lookup_cons, List.lookup_cons]
    cases name.codePoints == key with
    | true => exact read
    | false => exact ih

/-- `{**item, "value": None}` of a converted item. -/
def blankedJson (entry : JsonValue) : JsonValue :=
  match entry with
  | .dict members => if "value".codePoints ∈ members.map Prod.fst then .dict (assign members "value" .null) else entry
  | _ => entry

theorem convert_blanked {entry : ExactTree} {found : JsonValue} (numeric : Numeric number)
    (read : convert number entry = .ok found) : convert number (blanked entry) = .ok (blankedJson found) := by
  cases entry with
  | null =>
    cases read
    rfl
  | bool value =>
    cases read
    rfl
  | number value =>
    rcases numeric value found read with ⟨n, rfl⟩ | ⟨bits, rfl, -⟩
    · exact read
    · exact read
  | str value =>
    cases read
    rfl
  | array values =>
    obtain ⟨items, rfl, -⟩ := convert_array_iff.mp read
    exact read
  | object members =>
    obtain ⟨others, rfl, all⟩ := convert_object_iff.mp read
    have keys : members.map Prod.fst = others.map Prod.fst := Converted.keys all
    unfold blanked blankedJson
    dsimp only
    rw [keys]
    split
    · exact convert_object_iff.mpr ⟨_, rfl, forall₂_assign "value" (R := fun value other => convert number value = .ok other) all rfl⟩
    · exact read

theorem checkValues_iff {entries : List ExactTree} {done : Unit} : checkValues entries = .ok done ↔
    ∀ entry ∈ entries, ∀ value, upsertValue entry = some value → ∃ document, WireDocument.make value .default = .ok document := by
  induction entries with
  | nil => simp [checkValues]
  | cons entry rest ih =>
    rw [List.forall_mem_cons, ← ih, checkValues]
    cases upsertValue entry with
    | none => simp
    | some value =>
      dsimp only
      rw [bind_ok_iff]
      simp only [Option.some.injEq, forall_eq', exists_and_right]

/-- A value that `WireDocument` takes is one that `validate_json` takes once it is converted. -/
theorem validateJson_of_make {tree : ExactTree} {limits : Limits} {document : WireDocument} {found : JsonValue}
    (numeric : Numeric number) (proper : tree.Proper) (made : WireDocument.make tree limits = .ok document)
    (read : convert number tree = .ok found) : validateJson found limits = .ok () := by
  obtain ⟨-, ⟨items, depth, strings⟩, -⟩ := (WireDocument.make_iff proper).mp made
  let interpreter : Interpreter := ⟨fun _ => JsonValue.intToken 0, 0⟩
  obtain ⟨count, deep, texts, finite⟩ := convert_shape interpreter numeric read
  rw [JsonValue.validateJson_iff interpreter, count]
  refine ⟨by omega, by rw [deep]; exact depth, ?_, finite⟩
  exact (texts _).mpr (strings.imp fun text admitted => admitted.1)

end

/-- Objects with the same fields that agree at every name but one. -/
structure AgreeApart (name : String) (first second : List (Text × JsonValue)) : Prop where
  keys : first.map Prod.fst = second.map Prod.fst
  items : ∀ other, other ≠ name → item first other = item second other

section
variable {first second : List (Text × JsonValue)} {name : String}

theorem AgreeApart.refl : AgreeApart name first first := ⟨Eq.refl _, fun _ _ => Eq.refl _⟩

theorem AgreeApart.symm (agree : AgreeApart name first second) : AgreeApart name second first :=
  ⟨agree.keys.symm, fun other apart => (agree.items other apart).symm⟩

theorem agree_assign (value : JsonValue) (present : name.codePoints ∈ first.map Prod.fst) :
    AgreeApart name first (assign first name value) := by
  refine ⟨(keys_assign present).symm, fun other apart => ?_⟩
  rw [item_assign, if_neg apart]

theorem AgreeApart.closed {expected : List String} {kind : String} (agree : AgreeApart name first second)
    (closed : fields first expected kind = .ok ()) : fields second expected kind = .ok () := by
  unfold fields at closed ⊢
  rw [← agree.keys]
  exact closed

end

/-- What an entry becomes when its value becomes another one, which is valid. -/
def Revalued (first second : JsonValue) : Prop :=
  ∀ inner, first = .dict inner → ∃ other, second = .dict other ∧ AgreeApart "value" inner other ∧
    validateJson (item other "value") .default = .ok ()

theorem revalued_blank (entry : JsonValue) : Revalued entry (blankedJson entry) := by
  rintro members rfl
  unfold blankedJson
  dsimp only
  split
  · rename_i present
    refine ⟨_, rfl, agree_assign _ present, ?_⟩
    rw [item_assign, if_pos rfl]
    rfl
  · rename_i absent
    have none : item members "value" = .null := by
      by_contra some
      exact absent (item_present some)
    refine ⟨members, rfl, .refl, ?_⟩
    rw [none]
    rfl

theorem blank_revalued {entry : JsonValue}
    (valid : ∀ members, entry = .dict members → validateJson (item members "value") .default = .ok ()) :
    Revalued (blankedJson entry) entry := by
  intro inner blank
  cases entry with
  | dict members =>
    unfold blankedJson at blank
    dsimp only at blank
    split at blank
    · rename_i present
      cases blank
      exact ⟨members, rfl, (agree_assign _ present).symm, valid members rfl⟩
    · cases blank
      exact ⟨inner, rfl, .refl, valid inner rfl⟩
  | _ => cases blank

section
variable {limits : SyncLimits}

theorem decodeUpsert_revalued {inner other : List (Text × JsonValue)} {found : Upsert} (agree : AgreeApart "value" inner other)
    (valid : validateJson (item other "value") .default = .ok ()) (decoded : decodeUpsert limits inner = .ok found) :
    ∃ upsert, decodeUpsert limits other = .ok upsert := by
  obtain ⟨closed, isId, isRevision, -, short⟩ := decodeUpsert_iff.mp decoded
  rw [agree.items _ (by decide)] at isId isRevision
  obtain ⟨⟨⟩, proper, passed⟩ := bind_ok found.valid
  obtain ⟨⟨⟩, natural, -⟩ := bind_ok passed
  have checked : Upsert.postInit found.itemId found.revision (item other "value") = .ok () :=
    bind_ok_iff.mpr ⟨(), proper, bind_ok_iff.mpr ⟨(), natural, lift_ok.mpr valid⟩⟩
  exact ⟨⟨found.itemId, found.revision, item other "value", checked⟩,
    decodeUpsert_iff.mpr ⟨agree.closed closed, isId, isRevision, rfl, short⟩⟩

theorem entries_revalued {raw others : List JsonValue} {upserts : List Upsert} (related : List.Forall₂ Revalued raw others)
    (all : Entries (decodeUpsert limits) raw upserts) :
    ∃ found, Entries (decodeUpsert limits) others found ∧ found.length = upserts.length := by
  induction related generalizing upserts with
  | nil =>
    cases all
    exact ⟨[], .nil, rfl⟩
  | cons revalued _ ih =>
    cases all with
    | cons first more =>
      obtain ⟨inner, isObject, decoded⟩ := first
      obtain ⟨other, isOther, agree, valid⟩ := revalued inner isObject
      obtain ⟨upsert, read⟩ := decodeUpsert_revalued agree valid decoded
      obtain ⟨found, entries, length⟩ := ih more
      exact ⟨upsert :: found, .cons ⟨other, isOther, read⟩ entries, congrArg (· + 1) length⟩

/-- A snapshot with as many other upserts. -/
def SnapshotPage.withUpserts (page : SnapshotPage) (upserts : List Upsert) (same : upserts.length = page.upserts.length) :
    SnapshotPage :=
  ⟨page.datasetId, page.generation, upserts, page.nextCursor, page.integrity, by
    have valid := page.valid
    unfold SnapshotPage.postInit at valid ⊢
    rw [same]
    exact valid⟩

/-- A delta with as many other upserts. -/
def DeltaPage.withUpserts (page : DeltaPage) (upserts : List Upsert) (same : upserts.length = page.upserts.length) :
    DeltaPage :=
  ⟨page.datasetId, page.generation, upserts, page.tombstones, page.nextCursor, page.integrity, by
    have valid := page.valid
    unfold DeltaPage.postInit at valid ⊢
    rw [same]
    exact valid⟩

/-- A page is decoded whatever valid values its upserts have. -/
theorem decodes_revalued {payload other : List (Text × JsonValue)} {raw others : List JsonValue} {d : SyncDocument}
    (agree : AgreeApart "upserts" payload other) (isArray : item payload "upserts" = .list raw)
    (isArray' : item other "upserts" = .list others) (related : List.Forall₂ Revalued raw others)
    (page : kindOf d = "snapshot" ∨ kindOf d = "delta") (decoded : Decodes limits payload d) :
    ∃ found, kindOf found = kindOf d ∧ Decodes limits other found := by
  cases d with
  | snapshot document =>
    obtain ⟨closed, isId, isGeneration, ⟨found, isFound, all⟩, isCursor, isIntegrity, short, few⟩ := decodeSnapshot_iff.mp decoded
    rw [isArray] at isFound
    cases isFound
    obtain ⟨upserts, entries, length⟩ := entries_revalued related all
    rw [agree.items _ (by decide)] at isId isGeneration isCursor isIntegrity
    exact ⟨.snapshot (document.withUpserts upserts length), rfl, decodeSnapshot_iff.mpr ⟨agree.closed closed, isId, isGeneration,
      ⟨others, isArray', entries⟩, isCursor, isIntegrity, short, length ▸ few⟩⟩
  | delta document =>
    obtain ⟨closed, isId, isGeneration, ⟨found, isFound, all⟩, areTombstones, isCursor, isIntegrity, short, few⟩ :=
      decodeDelta_iff.mp decoded
    rw [isArray] at isFound
    cases isFound
    obtain ⟨upserts, entries, length⟩ := entries_revalued related all
    rw [agree.items _ (by decide)] at isId isGeneration areTombstones isCursor isIntegrity
    exact ⟨.delta (document.withUpserts upserts length), rfl, decodeDelta_iff.mpr ⟨agree.closed closed, isId, isGeneration,
      ⟨others, isArray', entries⟩, areTombstones, isCursor, isIntegrity, short, length ▸ few⟩⟩
  | _ => exact absurd page (by simp [kindOf])

/-- A page in its envelope is decoded whatever valid values its upserts have. -/
theorem decodeBounded_revalued {outer outer' payload payload' : List (Text × JsonValue)} {raw raw' : List JsonValue}
    (agree : AgreeApart "payload" outer outer') (isPayload : item outer "payload" = .dict payload)
    (isPayload' : item outer' "payload" = .dict payload') (inner : AgreeApart "upserts" payload payload')
    (isArray : item payload "upserts" = .list raw) (isArray' : item payload' "upserts" = .list raw')
    (related : List.Forall₂ Revalued raw raw')
    (page : item outer "kind" = .str "snapshot".codePoints ∨ item outer "kind" = .str "delta".codePoints)
    (decoded : ∃ d, decodeBoundedDocument (.dict outer) limits = .ok d) :
    ∃ d, decodeBoundedDocument (.dict outer') limits = .ok d := by
  obtain ⟨d, decoded⟩ := decoded
  obtain ⟨envelope, found, same, closed, isProtocol, isKind, isFound, decodes⟩ := decodeBoundedDocument_iff.mp decoded
  cases same
  rw [isPayload] at isFound
  cases isFound
  have kind : kindOf d = "snapshot" ∨ kindOf d = "delta" := by
    rw [isKind, JsonValue.str.injEq, JsonValue.str.injEq, String.codePoints_injective.eq_iff,
      String.codePoints_injective.eq_iff] at page
    exact page
  obtain ⟨other, sameKind, others⟩ := decodes_revalued inner isArray isArray' related kind decodes
  rw [agree.items _ (by decide)] at isProtocol isKind
  exact ⟨other, decodeBoundedDocument_iff.mpr
    ⟨outer', payload', rfl, agree.closed closed, isProtocol, sameKind ▸ isKind, isPayload', others⟩⟩

end

theorem isText_iff {value : ExactTree} {text : Text} : isText value text = true ↔ value = .str text := by
  cases value <;> simp [isText]

theorem isPageKind_iff {value : ExactTree} :
    isPageKind value = true ↔ value = .str "snapshot".codePoints ∨ value = .str "delta".codePoints := by
  rw [isPageKind, Bool.or_eq_true, isText_iff, isText_iff]

/-- The upserts of a page. -/
def upsertsOf (envelope : List (Text × ExactTree)) : List ExactTree :=
  match lookup envelope "payload" with
  | .object payload =>
    if isPageKind (lookup envelope "kind") then
      match lookup payload "upserts" with
      | .array upserts => upserts
      | _ => []
    else []
  | _ => []

section
variable {members envelope : List (Text × ExactTree)} {name : String}

theorem lookup_cases (members : List (Text × ExactTree)) (name : String) : (∃ value, (name.codePoints, value) ∈ members ∧ lookup members name = value) ∨
    (name.codePoints ∉ members.map Prod.fst ∧ lookup members name = .null) := by
  unfold lookup
  cases there : members.lookup name.codePoints with
  | none =>
    refine Or.inr ⟨fun present => ?_, rfl⟩
    obtain ⟨member, found, same⟩ := List.mem_map.mp present
    exact absurd same.symm (bne_iff_ne.mp (List.lookup_eq_none_iff.mp there member found))
  | some value =>
    obtain ⟨before, after, split, -⟩ := List.lookup_eq_some_iff.mp there
    refine Or.inl ⟨value, ?_, rfl⟩
    rw [split]
    exact List.mem_append_right _ List.mem_cons_self

theorem proper_lookup (name : String) (proper : ∀ member ∈ members, member.2.Proper) : (lookup members name).Proper := by
  rcases lookup_cases members name with ⟨value, member, same⟩ | ⟨-, same⟩
  · rw [same]
    exact proper _ member
  · rw [same]
    trivial

theorem proper_field (proper : (ExactTree.object members).Proper) (name : String) :
    (lookup members name).Proper := by
  rw [ExactTree.Proper, ExactTree.properMembers_iff] at proper
  exact proper_lookup name proper.2

theorem strings_field {test : Text → Prop} (strings : (ExactTree.object members).Strings test)
    (name : String) : (lookup members name).Strings test := by
  rw [ExactTree.Strings, ExactTree.stringsMembers_iff] at strings
  rcases lookup_cases members name with ⟨value, member, same⟩ | ⟨-, same⟩
  · rw [same]
    exact (strings _ member).2
  · rw [same]
    trivial

/-- To assign what is there changes nothing. -/
theorem assign_lookup (distinct : (members.map Prod.fst).Nodup) (present : name.codePoints ∈ members.map Prod.fst) :
    assign members name (lookup members name) = members := by
  rcases lookup_cases members name with ⟨value, found, same⟩ | ⟨absent, -⟩
  · rw [same, assign, if_pos present]
    conv_rhs => rw [← List.map_id members]
    refine List.map_congr_left fun member there => ?_
    split
    · rename_i key
      have one := List.inj_on_of_nodup_map distinct there found key
      rw [one]
      rfl
    · rfl
  · exact absurd present absent

theorem upsertsOf_page {payload : List (Text × ExactTree)} {upserts : List ExactTree}
    (isPayload : lookup envelope "payload" = .object payload) (page : isPageKind (lookup envelope "kind") = true)
    (isArray : lookup payload "upserts" = .array upserts) : upsertsOf envelope = upserts := by
  simp only [upsertsOf, isPayload, page, isArray, if_true]

theorem upsertsOf_other {payload : List (Text × ExactTree)} (isPayload : lookup envelope "payload" = .object payload)
    (other : ∀ upserts, lookup payload "upserts" = .array upserts → False) : upsertsOf envelope = [] := by
  simp only [upsertsOf, isPayload]
  cases found : lookup payload "upserts" with
  | array upserts => exact absurd found (other upserts)
  | _ => exact ite_self []

theorem upsertsOf_kind (other : ¬ isPageKind (lookup envelope "kind") = true) : upsertsOf envelope = [] := by
  simp only [upsertsOf, if_neg other]
  cases lookup envelope "payload" <;> rfl

theorem upsertsOf_flat (other : ∀ payload, lookup envelope "payload" = .object payload → False) : upsertsOf envelope = [] := by
  unfold upsertsOf
  cases found : lookup envelope "payload" with
  | object payload => exact absurd found (other payload)
  | _ => rfl

/-- What the projection of an envelope may be. -/
theorem projected_cases {blank : List (Text × ExactTree)} (distinct : (envelope.map Prod.fst).Nodup)
    (passed : projected envelope = .ok blank) :
    (blank = envelope ∧ upsertsOf envelope = []) ∨
      ∃ payload upserts, isPageKind (lookup envelope "kind") = true ∧ lookup envelope "payload" = .object payload ∧
        lookup payload "upserts" = .array upserts ∧ checkValues upserts = .ok () ∧ upsertsOf envelope = upserts ∧
        blank = assign envelope "payload" (.object (assign payload "upserts" (.array (upserts.map blanked)))) := by
  unfold projected at passed
  split at passed
  · rename_i payload isPayload
    split at passed
    · rename_i page
      obtain ⟨inner, projected, passed⟩ := bind_ok passed
      cases passed
      unfold projectedPayload at projected
      split at projected
      · rename_i upserts isArray
        obtain ⟨⟨⟩, checked, passed⟩ := bind_ok projected
        cases passed
        exact Or.inr ⟨payload, upserts, page, isPayload, isArray, checked, upsertsOf_page isPayload page isArray, rfl⟩
      · rename_i other
        cases projected
        refine Or.inl ⟨?_, upsertsOf_other isPayload other⟩
        rw [← isPayload]
        refine assign_lookup distinct ?_
        rcases lookup_cases envelope "payload" with ⟨value, found, -⟩ | ⟨-, same⟩
        · exact List.mem_map_of_mem found
        · rw [isPayload] at same
          cases same
    · rename_i other
      cases passed
      exact Or.inl ⟨rfl, upsertsOf_kind other⟩
  · rename_i other
    cases passed
    exact Or.inl ⟨rfl, upsertsOf_flat other⟩

end

section
variable {number : ExactNumber → Except WireError JsonValue} {limits : SyncLimits}

/-- The values of checked upserts are valid once they are converted. -/
theorem values_valid {upserts : List ExactTree} {raw : List JsonValue} (numeric : Numeric number)
    (proper : ∀ entry ∈ upserts, entry.Proper) (checked : checkValues upserts = .ok ())
    (all : List.Forall₂ (fun entry found => convert number entry = .ok found) upserts raw)
    (members : List (Text × JsonValue)) (there : JsonValue.dict members ∈ raw) :
    validateJson (item members "value") .default = .ok () := by
  obtain ⟨entry, member, read⟩ : ∃ entry ∈ upserts, convert number entry = .ok (.dict members) := by
    induction all with
    | nil => cases there
    | cons found _ ih =>
      rw [List.forall_mem_cons] at proper
      rw [checkValues_iff, List.forall_mem_cons] at checked
      rcases List.mem_cons.mp there with rfl | later
      · exact ⟨_, List.mem_cons_self, found⟩
      · obtain ⟨entry, member, read⟩ := ih proper.2 (checkValues_iff.mpr checked.2) later
        exact ⟨entry, List.mem_cons_of_mem _ member, read⟩
  cases entry with
  | object fields =>
    have proper := proper _ member
    rw [ExactTree.Proper, ExactTree.properMembers_iff] at proper
    obtain ⟨others, same, converted⟩ := convert_object_iff.mp read
    cases same
    have value : convert number (lookup fields "value") = .ok (item members "value") := Converted.lookup converted "value"
    cases present : fields.lookup "value".codePoints with
    | none =>
      unfold lookup at value
      rw [present, Option.getD_none, convert, Except.ok.injEq] at value
      rw [← value]
      rfl
    | some found =>
      obtain ⟨document, made⟩ := checkValues_iff.mp checked _ member found present
      have same : lookup fields "value" = found := by rw [lookup, present, Option.getD_some]
      rw [same] at value
      have properValue : found.Proper := same ▸ proper_lookup "value" proper.2
      exact validateJson_of_make numeric properValue made value
  | null => cases read
  | bool value => cases read
  | number value =>
    rcases numeric value _ read with ⟨n, absurd⟩ | ⟨bits, absurd, -⟩
    · cases absurd
    · cases absurd
  | str value => cases read
  | array values =>
    obtain ⟨items, absurd, -⟩ := convert_array_iff.mp read
    cases absurd

/-- The projection of a converted envelope is converted, and is decoded exactly when the envelope is. -/
theorem decodeBounded_projected (limits : SyncLimits) {envelope blank : List (Text × ExactTree)} {found : JsonValue} (numeric : Numeric number)
    (proper : (ExactTree.object envelope).Proper) (passed : projected envelope = .ok blank)
    (read : convert number (.object envelope) = .ok found) :
    ∃ projection, convert number (.object blank) = .ok projection ∧
      ((∃ d, decodeBoundedDocument projection limits = .ok d) ↔ ∃ d, decodeBoundedDocument found limits = .ok d) := by
  rw [ExactTree.Proper, ExactTree.properMembers_iff] at proper
  rcases projected_cases proper.1 passed with ⟨rfl, -⟩ | ⟨payload, upserts, page, isPayload, isArray, checked, -, rfl⟩
  · exact ⟨found, read, Iff.rfl⟩
  have properPayload := proper_lookup "payload" proper.2
  rw [isPayload, ExactTree.Proper, ExactTree.properMembers_iff] at properPayload
  have properUpserts := proper_lookup "upserts" properPayload.2
  rw [isArray, ExactTree.Proper, ExactTree.properAll_iff] at properUpserts
  obtain ⟨outer, rfl, members⟩ := convert_object_iff.mp read
  have payloadRead := Converted.lookup members "payload"
  rw [isPayload, convert_object_iff] at payloadRead
  obtain ⟨inner, isInner, fields⟩ := payloadRead
  have upsertsRead := Converted.lookup fields "upserts"
  rw [isArray, convert_array_iff] at upsertsRead
  obtain ⟨raw, isRaw, entries⟩ := upsertsRead
  have kindRead := Converted.lookup members "kind"
  have kind : item outer "kind" = .str "snapshot".codePoints ∨ item outer "kind" = .str "delta".codePoints := by
    rcases isPageKind_iff.mp page with same | same
    · rw [same, convert, Except.ok.injEq] at kindRead
      exact Or.inl kindRead.symm
    · rw [same, convert, Except.ok.injEq] at kindRead
      exact Or.inr kindRead.symm
  have blanks : convert number (.array (upserts.map blanked)) = .ok (.list (raw.map blankedJson)) := by
    rw [convert_array_iff]
    refine ⟨_, rfl, ?_⟩
    rw [List.forall₂_map_left_iff, List.forall₂_map_right_iff]
    exact entries.imp fun entry found same => convert_blanked numeric same
  have blankPayload : convert number (.object (assign payload "upserts" (.array (upserts.map blanked)))) =
      .ok (.dict (assign inner "upserts" (.list (raw.map blankedJson)))) :=
    convert_object_iff.mpr ⟨_, rfl, forall₂_assign "upserts" (R := fun value other => convert number value = .ok other) fields blanks⟩
  have blankEnvelope := convert_object_iff.mpr ⟨_, rfl,
    forall₂_assign "payload" (R := fun value other => convert number value = .ok other) members blankPayload⟩
  have agree := agree_assign (.dict (assign inner "upserts" (.list (raw.map blankedJson))))
    (item_present (isInner ▸ JsonValue.noConfusion : item outer "payload" ≠ .null))
  have within := agree_assign (.list (raw.map blankedJson))
    (item_present (isRaw ▸ JsonValue.noConfusion : item inner "upserts" ≠ .null))
  have isInner' : item (assign outer "payload" (.dict (assign inner "upserts" (.list (raw.map blankedJson))))) "payload" =
      .dict (assign inner "upserts" (.list (raw.map blankedJson))) := by rw [item_assign, if_pos rfl]
  have isRaw' : item (assign inner "upserts" (.list (raw.map blankedJson))) "upserts" = .list (raw.map blankedJson) := by
    rw [item_assign, if_pos rfl]
  have valid := values_valid numeric properUpserts checked entries
  refine ⟨_, blankEnvelope, decodeBounded_revalued agree.symm isInner' isInner within.symm isRaw' isRaw ?_ ?_,
    decodeBounded_revalued agree isInner isInner' within isRaw isRaw' ?_ kind⟩
  · rw [List.forall₂_map_left_iff, List.forall₂_same]
    exact fun entry member => blank_revalued fun members same => valid members (same ▸ member)
  · rw [item_assign, if_neg (by decide)]
    exact kind
  · rw [List.forall₂_map_right_iff, List.forall₂_same]
    exact fun entry _ => revalued_blank entry

end

/-- An envelope is projected exactly when its upserts are checked. -/
theorem projected_total {envelope : List (Text × ExactTree)} :
    (∃ blank, projected envelope = .ok blank) ↔ checkValues (upsertsOf envelope) = .ok () := by
  unfold projected upsertsOf
  cases lookup envelope "payload" with
  | object payload =>
    dsimp only
    split
    · unfold projectedPayload
      cases lookup payload "upserts" with
      | array upserts =>
        simp only [bind_ok_iff]
        constructor
        · rintro ⟨blank, inner, ⟨⟨⟩, checked, -⟩, -⟩
          exact checked
        · intro checked
          exact ⟨_, _, ⟨(), checked, rfl⟩, rfl⟩
      | _ => exact ⟨fun _ => rfl, fun _ => ⟨_, rfl⟩⟩
    · exact ⟨fun _ => rfl, fun _ => ⟨_, rfl⟩⟩
  | _ => exact ⟨fun _ => rfl, fun _ => ⟨_, rfl⟩⟩

/-- What a valid shape is. -/
theorem validateShape_iff {document : WireDocument} {limits : SyncLimits} {done : Unit} :
    validateShape document limits = .ok done ↔
      ∃ envelope blank projection d, document.value = .object envelope ∧ lookup envelope "protocol" = .str syncProtocol ∧
        projected envelope = .ok blank ∧ shapeValue (.object blank) = .ok projection ∧
        decodeBoundedDocument projection limits = .ok d := by
  rw [validateShape, bind_ok_iff]
  constructor
  · rintro ⟨envelope, isObject, passed⟩
    split at passed
    · rename_i protocol isProtocol
      split at passed
      · cases passed
      rename_i same
      rw [not_not] at same
      obtain ⟨blank, projects, passed⟩ := bind_ok passed
      split at passed
      · cases passed
      · rename_i projection shape
        split at passed
        · cases passed
        · rename_i d decoded
          exact ⟨envelope, blank, projection, d, mapping_iff.mp isObject, same ▸ isProtocol, projects, shape, decoded⟩
    · cases passed
  · rintro ⟨envelope, blank, projection, d, isObject, isProtocol, projects, shape, decoded⟩
    refine ⟨envelope, mapping_iff.mpr isObject, ?_⟩
    rw [isProtocol]
    dsimp only
    rw [if_neg (not_not.mpr rfl), bind_ok_iff]
    refine ⟨blank, projects, ?_⟩
    rw [shape]
    dsimp only
    rw [decoded]

theorem shapeNumber_ordinary (number : ExactNumber) (item : JsonValue) (read : number.toInt.map JsonValue.int = .ok item) :
    ordinaryNumber true number = .ok item := by
  rcases toInt_settled number with ⟨n, found⟩ | failed
  · unfold ordinaryNumber
    rw [if_pos (toInt_iff.mp found).1]
    exact read
  · rw [failed] at read
    cases read

end Pytitect.Sync
