import Pytitect.Sync.Raw

namespace Pytitect.Sync
open Wire

section
variable {moment : Nat} {registry found : Dict Text SyncIntegrityPolicy} {policies : List SyncIntegrityPolicy}

/-- Every policy of the registry stands under the capability that it had. -/
theorem register_ok (known : ∀ name policy, registry.get? name = some policy → policy.capability moment = name)
    (registered : register moment registry policies = .ok found) {name : Text} {policy : SyncIntegrityPolicy}
    (there : found.get? name = some policy) :
    policy.capability moment = name ∧ (registry.get? name = some policy ∨ policy ∈ policies) := by
  induction policies generalizing registry with
  | nil =>
    cases registered
    exact ⟨known name policy there, Or.inl there⟩
  | cons first rest ih =>
    rw [register] at registered
    split at registered
    · cases registered
    have next : ∀ name policy, (registry.set (first.capability moment) first).get? name = some policy →
        policy.capability moment = name := by
      intro name policy present
      rcases Dict.get?_set_cases present with ⟨same, other⟩ | ⟨-, old⟩
      · rw [other, same]
      · exact known name policy old
    obtain ⟨capability, origin⟩ := ih next registered
    refine ⟨capability, ?_⟩
    rcases origin with present | member
    · rcases Dict.get?_set_cases present with ⟨-, same⟩ | ⟨-, old⟩
      · exact Or.inr (by rw [same]; exact List.mem_cons_self)
      · exact Or.inl old
    · exact Or.inr (List.mem_cons_of_mem _ member)

/-- No capability is registered twice. -/
theorem register_distinct (registered : register moment registry policies = .ok found) :
    (∀ policy ∈ policies, policy.capability moment ∉ registry.keys) ∧
      (policies.map fun policy => policy.capability moment).Nodup := by
  induction policies generalizing registry with
  | nil => exact ⟨by simp, List.nodup_nil⟩
  | cons first rest ih =>
    rw [register] at registered
    split at registered
    · cases registered
    rename_i fresh
    rw [not_or] at fresh
    obtain ⟨apart, distinct⟩ := ih registered
    rw [Dict.keys_set_of_absent fresh.2] at apart
    simp only [List.mem_append, List.mem_singleton, not_or] at apart
    refine ⟨List.forall_mem_cons.mpr ⟨fresh.2, fun policy member => (apart policy member).1⟩, ?_⟩
    rw [List.map_cons, List.nodup_cons]
    refine ⟨fun twice => ?_, distinct⟩
    obtain ⟨policy, member, same⟩ := List.mem_map.mp twice
    exact (apart policy member).2 same

theorem acknowledge_ok {selection : SyncIntegritySelection} {header : Option Text} {done : Unit}
    (acknowledged : selection.acknowledge header moment = .ok done) :
    header = selection.capability ∧ (selection.policy.map fun policy => policy.capability moment) = selection.capability := by
  unfold SyncIntegritySelection.acknowledge at acknowledged
  dsimp only at acknowledged
  split at acknowledged
  · cases acknowledged
  · rename_i same
    rw [not_or, not_not, not_not] at same
    exact same

theorem makeSelection_ok {policy : Option SyncIntegrityPolicy} {selection : SyncIntegritySelection}
    (made : SyncIntegritySelection.make policy moment = .ok selection) :
    selection = ⟨policy, policy.map fun policy => policy.capability moment⟩ := by
  unfold SyncIntegritySelection.make at made
  dsimp only at made
  split at made
  · cases made
  · exact (Except.ok.inj made).symm

/-- What was selected when an exact integrity was requested. -/
theorem select_ok {requested : List Text} {acknowledgement : Option Text} {selection : SyncIntegritySelection}
    (asked : ∃ name ∈ requested, isExactIntegrity name = true)
    (selected : selectSyncIntegrity requested acknowledgement policies moment = .ok selection) :
    ∃ capability, ∃ policy ∈ policies, requested.filter isExactIntegrity = [capability] ∧
      policy.capability moment = capability ∧
      (∀ other ∈ policies, other.capability moment = capability → other = policy) ∧
      selection = ⟨some policy, some capability⟩ ∧ acknowledgement = some capability := by
  obtain ⟨registry, registered, passed⟩ := bind_ok selected
  dsimp only at passed
  split at passed
  · cases passed
  rename_i known
  obtain ⟨chosen, made, passed⟩ := bind_ok passed
  obtain ⟨⟨⟩, acknowledged, passed⟩ := bind_ok passed
  cases passed
  unfold chosenSelection at made
  split at made
  · rename_i none
    obtain ⟨name, member, exact⟩ := asked
    have inFilter : name ∈ requested.filter isExactIntegrity := List.mem_filter.mpr ⟨member, exact⟩
    rw [none] at inFilter
    cases inFilter
  · rename_i capability one
    have present : capability ∈ registry.keys := by
      rw [one] at known
      simpa using known
    cases there : registry.get? capability with
    | none => exact absurd present (Dict.get?_eq_none.mp there)
    | some policy =>
      obtain ⟨named, origin⟩ := register_ok (fun _ _ absurd => by cases absurd) registered there
      rcases origin with absurd | member
      · cases absurd
      · rw [there] at made
        have same := makeSelection_ok made
        rw [Option.map_some, named] at same
        have alone : ∀ other ∈ policies, other.capability moment = capability → other = policy := fun other member' same' =>
          List.inj_on_of_nodup_map (register_distinct registered).2 member' member (same'.trans named.symm)
        refine ⟨capability, policy, member, one, named, alone, same, ?_⟩
        rw [(acknowledge_ok acknowledged).1, same]
  · cases made

end

theorem liftWire_ok {α : Type} {result : Except WireError α} {value : α} : liftWire result = .ok value ↔ result = .ok value := by
  cases result with
  | ok found => rw [liftWire, Except.ok.injEq, Except.ok.injEq]
  | error error => exact ⟨fun absurd => (by cases absurd), fun absurd => (by cases absurd)⟩

theorem makeRaw_ok {document : WireDocument} {limits : SyncLimits} {raw : SyncWireDocument} :
    SyncWireDocument.make document limits = .ok raw ↔ raw.document = document ∧ raw.limits = limits := by
  unfold SyncWireDocument.make
  split
  · rw [Except.ok.injEq]
    constructor
    · rintro rfl
      exact ⟨rfl, rfl⟩
    · obtain ⟨found, bounds, valid⟩ := raw
      rintro ⟨rfl, rfl⟩
      rfl
  · rename_i error refused
    refine ⟨fun absurd => (by cases absurd), fun same => ?_⟩
    have valid := raw.valid
    rw [same.1, same.2, refused] at valid
    cases valid

theorem mapping_iff {value : ExactTree} {found : List (Text × ExactTree)} :
    mapping value = .ok found ↔ value = .object found := by
  cases value <;> simp [mapping]

/-- Whoever asked for an exact integrity gets no page that the policy registered under the
one capability asked for has not verified, whatever the peer answers. -/
theorem integrity_is_not_downgraded (requested : List Text) (acknowledgement later : Option Text)
    (policies : List SyncIntegrityPolicy) (chunks : List (List UInt8)) (limits : SyncLimits) (wireLimits : Option Limits)
    (selecting decoding : Nat) (selection : SyncIntegritySelection) (found : SyncWireDocument)
    (envelope : List (Text × ExactTree)) (asked : ∃ name ∈ requested, isExactIntegrity name = true)
    (selected : selectSyncIntegrity requested acknowledgement policies selecting = .ok selection)
    (decoded : decodeSyncStream chunks limits wireLimits (some selection) later decoding = .ok found)
    (isObject : found.document.value = .object envelope) (page : isPageKind (lookup envelope "kind") = true) :
    ∃ capability, requested.filter isExactIntegrity = [capability] ∧ acknowledgement = some capability ∧
      later = some capability ∧ ∃ policy ∈ policies, policy.capability selecting = capability ∧
        (∀ other ∈ policies, other.capability selecting = capability → other = policy) ∧
        policy.capability decoding = capability ∧ policy.verify found.document = .ok () := by
  obtain ⟨capability, policy, member, one, named, alone, rfl, acknowledged⟩ := select_ok asked selected
  obtain ⟨⟨⟩, again, passed⟩ := bind_ok decoded
  obtain ⟨document, read, passed⟩ := bind_ok passed
  obtain ⟨members, mapped, passed⟩ := bind_ok passed
  obtain ⟨⟨⟩, verified, passed⟩ := bind_ok passed
  obtain ⟨same, current⟩ := acknowledge_ok (liftWire_ok.mp again)
  obtain ⟨rfl, -⟩ := makeRaw_ok.mp (liftWire_ok.mp passed)
  have inside := mapping_iff.mp (liftWire_ok.mp mapped)
  rw [isObject, ExactTree.object.injEq] at inside
  have checked : policy.verify found.document = .ok () := by
    rw [← inside] at verified
    change (if isPageKind (lookup envelope "kind") then policy.verify found.document else .ok ()) = _ at verified
    rwa [if_pos page] at verified
  exact ⟨capability, one, acknowledged, same, policy, member, named, alone, Option.some.inj current, checked⟩

/-- An empty page of the dataset `d`, sealed with a digest of zeros. -/
def samplePage : JsonValue :=
  envelope "snapshot".codePoints (members [("dataset_id", .str "d".codePoints), ("generation", .int 0), ("upserts", .list []),
    ("next_cursor", .null), ("integrity", members [("algorithm", .str "sha-256".codePoints),
      ("digest", .str (List.replicate 64 0x30)), ("item_count", .int 0)])])

def samplePageBytes : List UInt8 := Text.utf8 (samplePage.text ⟨fun _ => ⟨[0x30], rfl⟩, 4300⟩ false)

/-- A policy that verifies everything. -/
def samplePolicy : SyncIntegrityPolicy := ⟨fun _ => "integrity-x".codePoints, fun _ => .ok ()⟩

def sampleSelection : SyncIntegritySelection := ⟨some samplePolicy, some "integrity-x".codePoints⟩

/-- The envelope of a page that was decoded. -/
def decodedPage (answer : Except RawError SyncWireDocument) : Option (List (Text × ExactTree)) :=
  match answer with
  | .ok found =>
    match found.document.value with
    | .object envelope => if isPageKind (lookup envelope "kind") then some envelope else none
    | _ => none
  | .error _ => none

theorem decodedPage_some (answer : Except RawError SyncWireDocument) (page : (decodedPage answer).isSome = true) :
    ∃ found envelope, answer = .ok found ∧ found.document.value = .object envelope ∧
      isPageKind (lookup envelope "kind") = true := by
  unfold decodedPage at page
  split at page
  · rename_i found
    split at page
    · rename_i envelope isObject
      split at page
      · rename_i kind
        exact ⟨found, envelope, rfl, isObject, kind⟩
      · cases page
    · cases page
  · cases page

theorem sample_is_not_downgraded : ∃ found, decodeSyncStream [samplePageBytes] .default none (some sampleSelection)
      (some "integrity-x".codePoints) 1 = .ok found ∧
    ∃ capability, ["integrity-x".codePoints].filter isExactIntegrity = [capability] ∧
      some "integrity-x".codePoints = some capability ∧ some "integrity-x".codePoints = some capability ∧
      ∃ policy ∈ [samplePolicy], policy.capability 0 = capability ∧
        (∀ other ∈ [samplePolicy], other.capability 0 = capability → other = policy) ∧
        policy.capability 1 = capability ∧ policy.verify found.document = .ok () := by
  obtain ⟨found, envelope, decoded, isObject, page⟩ := decodedPage_some
    (decodeSyncStream [samplePageBytes] .default none (some sampleSelection) (some "integrity-x".codePoints) 1)
    (by decide +kernel)
  exact ⟨found, decoded, integrity_is_not_downgraded _ _ _ [samplePolicy] _ _ _ 0 1 _ found envelope
    ⟨_, List.mem_singleton.mpr rfl, rfl⟩ rfl decoded isObject page⟩

end Pytitect.Sync
