import Pytitect.Sync.Projection

namespace Pytitect.Sync
open Wire

/-- The numbers of the upsert values of a page. -/
def upsertNumbers (value : ExactTree) : List ExactNumber :=
  match value with
  | .object envelope => (upsertsOf envelope).flatMap fun entry => ((upsertValue entry).map ExactTree.numbers).getD []
  | _ => []

section
variable {members envelope : List (Text × ExactTree)} {name : String} {n : ExactNumber}

theorem lookup_of_mem (distinct : (members.map Prod.fst).Nodup) {member : Text × ExactTree} (there : member ∈ members)
    (key : member.1 = name.codePoints) : lookup members name = member.2 := by
  rcases lookup_cases members name with ⟨value, found, same⟩ | ⟨absent, -⟩
  · rw [same, List.inj_on_of_nodup_map distinct there found key]
  · exact absurd (key ▸ List.mem_map_of_mem there) absent

theorem numbers_lookup (name : String) (number : n ∈ (lookup members name).numbers) : n ∈ ExactTree.numbersMembers members := by
  rcases lookup_cases members name with ⟨value, found, same⟩ | ⟨-, same⟩
  · rw [same] at number
    exact ExactTree.mem_numbersMembers.mpr ⟨_, found, number⟩
  · rw [same] at number
    cases number

/-- The numbers that an assignment loses are those of the member it replaces. -/
theorem numbers_assign (name : String) (value : ExactTree) (distinct : (members.map Prod.fst).Nodup)
    (number : n ∈ ExactTree.numbersMembers members) :
    n ∈ ExactTree.numbersMembers (assign members name value) ∨ n ∈ (lookup members name).numbers := by
  obtain ⟨member, there, inside⟩ := ExactTree.mem_numbersMembers.mp number
  by_cases key : member.1 = name.codePoints
  · exact Or.inr (lookup_of_mem distinct there key ▸ inside)
  · refine Or.inl (ExactTree.mem_numbersMembers.mpr ⟨member, ?_, inside⟩)
    unfold assign
    split
    · exact List.mem_map.mpr ⟨member, there, if_neg key⟩
    · exact List.mem_append_left _ there

theorem numbers_blanked {entry : ExactTree} (proper : entry.Proper) (number : n ∈ entry.numbers) :
    n ∈ (blanked entry).numbers ∨ n ∈ ((upsertValue entry).map ExactTree.numbers).getD [] := by
  cases entry with
  | object fields =>
    rw [ExactTree.Proper] at proper
    rw [ExactTree.numbers] at number
    unfold blanked upsertValue
    dsimp only
    split
    · rcases numbers_assign "value" .null proper.1 number with kept | lost
      · exact Or.inl kept
      · unfold lookup at lost
        cases present : fields.lookup "value".codePoints with
        | none =>
          rw [present] at lost
          cases lost
        | some value =>
          rw [present] at lost
          exact Or.inr lost
    · exact Or.inl number
  | _ => exact Or.inl number

/-- The numbers that the projection loses are those of the upsert values. -/
theorem numbers_projected {blank : List (Text × ExactTree)} (proper : (ExactTree.object envelope).Proper)
    (passed : projected envelope = .ok blank) (number : n ∈ ExactTree.numbersMembers envelope) :
    n ∈ ExactTree.numbersMembers blank ∨ n ∈ upsertNumbers (.object envelope) := by
  rw [ExactTree.Proper, ExactTree.properMembers_iff] at proper
  rcases projected_cases proper.1 passed with ⟨rfl, -⟩ | ⟨payload, upserts, page, isPayload, isArray, checked, same, rfl⟩
  · exact Or.inl number
  have properPayload := proper_lookup "payload" proper.2
  rw [isPayload, ExactTree.Proper, ExactTree.properMembers_iff] at properPayload
  have properUpserts := proper_lookup "upserts" properPayload.2
  rw [isArray, ExactTree.Proper, ExactTree.properAll_iff] at properUpserts
  by_cases outside : n ∈ ExactTree.numbersMembers (assign envelope "payload"
      (.object (assign payload "upserts" (.array (upserts.map blanked)))))
  · exact Or.inl outside
  refine Or.inr ?_
  have inPayload : n ∈ (lookup envelope "payload").numbers := (numbers_assign "payload" _ proper.1 number).resolve_left outside
  rw [isPayload, ExactTree.numbers] at inPayload
  have blankOutside : n ∉ ExactTree.numbersMembers (assign payload "upserts" (.array (upserts.map blanked))) := by
    intro inside
    have whole : lookup (assign envelope "payload" (.object (assign payload "upserts" (.array (upserts.map blanked)))))
        "payload" = .object (assign payload "upserts" (.array (upserts.map blanked))) := by
      rw [lookup, lookup_assign, if_pos rfl, Option.getD_some]
    exact outside (numbers_lookup "payload" (by rw [whole]; exact inside))
  have inUpserts : n ∈ (lookup payload "upserts").numbers := (numbers_assign "upserts" _ properPayload.1 inPayload).resolve_left blankOutside
  rw [isArray, ExactTree.numbers] at inUpserts
  obtain ⟨entry, member, inside⟩ := ExactTree.mem_numbersAll.mp inUpserts
  unfold upsertNumbers
  dsimp only
  rw [same, List.mem_flatMap]
  refine ⟨entry, member, (numbers_blanked (properUpserts entry member) inside).resolve_left fun kept => ?_⟩
  refine blankOutside (numbers_lookup "upserts" ?_)
  rw [lookup, lookup_assign, if_pos rfl, Option.getD_some]
  exact ExactTree.mem_numbersAll.mpr ⟨_, List.mem_map_of_mem member, kept⟩

theorem upsertNumbers_sub {value : ExactTree} (number : n ∈ upsertNumbers value) : n ∈ value.numbers := by
  unfold upsertNumbers at number
  split at number
  · rename_i envelope
    obtain ⟨entry, member, inside⟩ := List.mem_flatMap.mp number
    have inEntry : n ∈ entry.numbers := by
      unfold upsertValue at inside
      split at inside
      · rename_i fields
        refine numbers_lookup "value" ?_
        unfold lookup
        cases present : fields.lookup "value".codePoints with
        | none =>
          rw [present] at inside
          cases inside
        | some value =>
          rw [present] at inside
          exact inside
      · cases inside
    unfold upsertsOf at member
    split at member
    · rename_i payload isPayload
      split at member
      · split at member
        · rename_i upserts isArray
          refine numbers_lookup "payload" ?_
          rw [isPayload]
          refine numbers_lookup "upserts" ?_
          rw [isArray]
          exact ExactTree.mem_numbersAll.mpr ⟨entry, member, inEntry⟩
        · cases member
      · cases member
    · cases member
  · cases number

end

/-- A raw document is converted when every number of its upsert values is representable,
and otherwise raises the precision error: nothing else can happen. -/
theorem raw_converts_or_is_imprecise (value : ExactValue) (limits : Limits) (document : WireDocument) (bounds : SyncLimits)
    (raw : SyncWireDocument) (made : WireDocument.make value.tree limits = .ok document)
    (shaped : SyncWireDocument.make document bounds = .ok raw) :
    ((∀ n ∈ upsertNumbers document.value, n.Representable) ∧ ∃ d, raw.toContract = .ok d) ∨
      ((∃ n ∈ upsertNumbers document.value, ¬n.Representable) ∧ raw.toContract = .error (.wire .precision)) := by
  obtain ⟨rfl, rfl⟩ := makeRaw_ok.mp shaped
  obtain ⟨same, -⟩ := (WireDocument.make_iff value.proper).mp made
  have proper := value.proper
  have isValue : raw.document.value = value.tree := by rw [same]
  rw [← isValue] at proper
  obtain ⟨envelope, blank, projection, d, isObject, -, projects, shape, decoded⟩ := validateShape_iff.mp raw.valid
  rw [isObject] at proper
  have readBlank : convert (ordinaryNumber true) (.object blank) = .ok projection := convert_mono shapeNumber_ordinary shape
  have fine : ∀ n ∈ ExactTree.numbersMembers blank, ∃ item, ordinaryNumber true n = .ok item := by
    rcases convert_total (ordinaryNumber_settled true) (.object blank) with
      ⟨all, -⟩ | ⟨-, failed⟩
    · exact all
    · rw [readBlank] at failed
      cases failed
  unfold SyncWireDocument.toContract WireDocument.toJson ordinary
  rw [isObject]
  rcases convert_total (ordinaryNumber_settled true) (.object envelope) with
    ⟨all, found, read⟩ | ⟨⟨n, inside, failed⟩, stopped⟩
  · obtain ⟨projection', readBlank', both⟩ := decodeBounded_projected raw.limits ordinaryNumber_numeric proper
      projects read
    rw [readBlank] at readBlank'
    cases readBlank'
    obtain ⟨other, contract⟩ := both.mp ⟨d, decoded⟩
    refine Or.inl ⟨fun n member => ordinaryNumber_checked.mp (all n (upsertNumbers_sub member)), other, ?_⟩
    rw [read]
    change liftContract (decodeBoundedDocument found raw.limits) = _
    rw [contract]
    rfl
  · have refused : ¬∃ item, ordinaryNumber true n = .ok item := by
      rintro ⟨item, passed⟩
      rw [failed] at passed
      cases passed
    have lost := (numbers_projected proper projects inside).resolve_left fun kept => refused (fine n kept)
    refine Or.inr ⟨⟨n, lost, fun representable => refused (ordinaryNumber_checked.mpr representable)⟩, ?_⟩
    rw [stopped]
    rfl

/-- An exact object that is written out. -/
def exactly (entries : List (String × ExactTree)) : ExactTree :=
  .object (entries.map fun entry => (entry.1.codePoints, entry.2))

/-- A page of one upsert with a number as its value. -/
def pageWith (number : ExactNumber) : ExactTree :=
  exactly [("protocol", .str syncProtocol), ("kind", .str "snapshot".codePoints), ("payload", exactly
    [("dataset_id", .str "d".codePoints), ("generation", .number (JsonValue.intToken 0)),
      ("upserts", .array [exactly [("item_id", .str "i".codePoints), ("revision", .number (JsonValue.intToken 0)),
        ("value", .number number)]]),
      ("next_cursor", .null), ("integrity", exactly [("algorithm", .str "sha-256".codePoints),
        ("digest", .str (List.replicate 64 0x30)), ("item_count", .number (JsonValue.intToken 1))])])]

theorem pageWith_proper (number : ExactNumber) : (pageWith number).Proper := by
  simp only [pageWith, exactly, ExactTree.Proper, ExactTree.ProperMembers, ExactTree.ProperAll, List.map_cons, List.map_nil,
    and_true]
  decide

/-- `0.5` -/
def half : ExactNumber := ⟨"0.5".codePoints, by decide⟩

/-- `0e1000000000000000000` -/
def farZero : ExactNumber := ⟨"0e1000000000000000000".codePoints, by decide⟩

/-- The raw document of a tree. -/
def rawOf (tree : ExactTree) : Except WireError SyncWireDocument := do
  let document ← WireDocument.make tree .default
  SyncWireDocument.make document .default

theorem rawOf_ok (tree : ExactTree) (accepted : (rawOf tree).isOk = true) :
    ∃ document raw, WireDocument.make tree .default = .ok document ∧ SyncWireDocument.make document .default = .ok raw := by
  cases found : rawOf tree with
  | error error =>
    rw [found] at accepted
    cases accepted
  | ok raw =>
    obtain ⟨document, made, shaped⟩ := bind_ok found
    exact ⟨document, raw, made, shaped⟩

theorem upsertNumbers_half : upsertNumbers (pageWith half) = [half] := by decide +kernel

theorem upsertNumbers_farZero : upsertNumbers (pageWith farZero) = [farZero] := by decide +kernel

theorem half_representable : half.Representable :=
  Or.inr ⟨by decide, 0x3fe0000000000000, by decide, by decide +kernel⟩

theorem half_converts : ∃ document raw, WireDocument.make (pageWith half) .default = .ok document ∧
    SyncWireDocument.make document .default = .ok raw ∧ ∃ d, raw.toContract = .ok d := by
  obtain ⟨document, raw, made, shaped⟩ := rawOf_ok (pageWith half) (by decide +kernel)
  refine ⟨document, raw, made, shaped, ?_⟩
  rcases raw_converts_or_is_imprecise ⟨pageWith half, pageWith_proper half⟩ .default document .default raw made shaped with
    converts | imprecise
  · exact converts.2
  · obtain ⟨n, member, other⟩ := imprecise.1
    rw [((WireDocument.make_iff (pageWith_proper half)).mp made).1, upsertNumbers_half, List.mem_singleton] at member
    exact absurd (member ▸ half_representable) other

theorem farZero_is_zero : Binary64.value 0 = farZero.value := by
  have none : farZero.coefficient = 0 := by decide
  rw [ExactNumber.value, none]
  unfold Binary64.decimalValue
  rw [Nat.cast_zero, zero_mul, zero_div, mul_zero]
  decide +kernel

/-- A zero whose exponent `Decimal` does not take is refused, though it is a binary64 number. -/
theorem zero_is_imprecise : ¬∀ (value : ExactValue) (limits : Limits) (document : WireDocument) (bounds : SyncLimits)
    (raw : SyncWireDocument), WireDocument.make value.tree limits = .ok document →
    SyncWireDocument.make document bounds = .ok raw → (∃ d, raw.toContract = .ok d) ∨
      ((∃ n ∈ upsertNumbers document.value, isInteger n.token = false ∧
        ¬∃ bits, JsonValue.isFinite bits = true ∧ Binary64.value bits = n.value) ∧
        raw.toContract = .error (.wire .precision)) := by
  intro claimed
  obtain ⟨document, raw, made, shaped⟩ := rawOf_ok (pageWith farZero) (by decide +kernel)
  have isDocument := ((WireDocument.make_iff (pageWith_proper farZero)).mp made).1
  rcases claimed ⟨pageWith farZero, pageWith_proper farZero⟩ .default document .default raw made shaped with
    ⟨d, converts⟩ | ⟨⟨n, member, -, imprecise⟩, -⟩
  · obtain ⟨found, read, -⟩ := bind_ok converts
    rw [liftWire_ok, WireDocument.toJson, ordinary, (makeRaw_ok.mp shaped).1, isDocument] at read
    rcases convert_total (ordinaryNumber_settled true) (pageWith farZero) with
      ⟨all, -⟩ | ⟨-, failed⟩
    · obtain integer | ⟨range, -⟩ := ordinaryNumber_checked.mp (all farZero (upsertNumbers_sub (by
        rw [upsertNumbers_farZero]
        exact List.mem_cons_self)))
      · exact absurd integer (by decide)
      · exact absurd range (by decide)
    · rw [read] at failed
      cases failed
  · rw [isDocument, upsertNumbers_farZero, List.mem_singleton] at member
    exact imprecise ⟨0, by decide, member ▸ farZero_is_zero⟩

end Pytitect.Sync
