import Pytitect.Wire.Denotation

namespace Pytitect.Wire
open JsonText

/-- Every value is charged before it is looked at. -/
def charge (limits : Limits) (depth count : Nat) : Except WireError Nat :=
  if limits.maxJsonItems < count + 1 ∨ limits.maxJsonDepth < depth then .error .limits else .ok (count + 1)

/-- `_string_limit` -/
def stringLimit (value : Text) (limits : Limits) : Except WireError Unit :=
  if limits.maxStringLength < value.length then .error .limits
  else if value.any CodePoint.isSurrogate then .error .malformed
  else .ok ()

mutual

/-- The nested `visit` of `_freeze`, with the count so far. -/
def visit (limits : Limits) : ExactTree → Nat → Nat → Except WireError (ExactTree × Nat)
  | .null, depth, count => do
    let count ← charge limits depth count
    return (.null, count)
  | .bool value, depth, count => do
    let count ← charge limits depth count
    return (.bool value, count)
  | .number value, depth, count => do
    let count ← charge limits depth count
    return (.number value, count)
  | .str value, depth, count => do
    let count ← charge limits depth count
    let _ ← stringLimit value limits
    return (.str value, count)
  | .array values, depth, count => do
    let count ← charge limits depth count
    let (frozen, count) ← visitAll limits values (depth + 1) count
    return (.array frozen, count)
  | .object members, depth, count => do
    let count ← charge limits depth count
    let (result, count) ← visitMembers limits members (depth + 1) .empty count
    return (.object result.items, count)

def visitAll (limits : Limits) : List ExactTree → Nat → Nat → Except WireError (List ExactTree × Nat)
  | [], _, count => return ([], count)
  | value :: rest, depth, count => do
    let (first, count) ← visit limits value depth count
    let (others, count) ← visitAll limits rest depth count
    return (first :: others, count)

def visitMembers (limits : Limits) :
    List (Text × ExactTree) → Nat → Dict Text ExactTree → Nat → Except WireError (Dict Text ExactTree × Nat)
  | [], _, result, count => return (result, count)
  | (key, value) :: rest, depth, result, count => do
    let _ ← stringLimit key limits
    let (child, count) ← visit limits value depth count
    visitMembers limits rest depth (result.set key child) count

end

/-- `_freeze` -/
def freeze (value : ExactTree) (limits : Limits) : Except WireError ExactTree := do
  let (frozen, _) ← visit limits value 0 0
  return frozen

/-- A lower-case hexadecimal digit. -/
def hexLetter (n : Nat) : CodePoint := Fin.ofNat 0x110000 (if n < 10 then 0x30 + n else 0x57 + n)

/-- One character as `json.dumps` writes it without `ensure_ascii`. -/
def escaped (c : CodePoint) : Text :=
  if c = quote then [backslash, quote]
  else if c = backslash then [backslash, backslash]
  else if c.val = 0x0a then [backslash, 0x6e]
  else if c.val = 0x0d then [backslash, 0x72]
  else if c.val = 0x09 then [backslash, 0x74]
  else if c.val = 0x0c then [backslash, 0x66]
  else if c.val = 0x08 then [backslash, 0x62]
  else if c.val < 0x20 then [backslash, 0x75, 0x30, 0x30, hexLetter (c.val / 16), hexLetter (c.val % 16)]
  else [c]

/-- `json.dumps` of a string. -/
def dumps (value : Text) : Text := quote :: (value.flatMap escaped ++ [quote])

/-- Entries with a comma between each two. -/
def separate : List (List Text) → List Text
  | [] => []
  | [entry] => entry
  | entry :: rest => entry ++ [comma] :: separate rest

mutual

/-- `_pieces` -/
def pieces : ExactTree → List Text
  | .null => [nullWord]
  | .bool true => [trueWord]
  | .bool false => [falseWord]
  | .number value => [value.token]
  | .str value => [dumps value]
  | .array values => [openArray] :: (separate (piecesAll values) ++ [[closeArray]])
  | .object members =>
    [openObject] ::
      (separate ((arranged (piecesMembers members)).map fun member => dumps member.1 :: [colon] :: member.2) ++
        [[closeObject]])

def piecesAll : List ExactTree → List (List Text)
  | [] => []
  | value :: rest => pieces value :: piecesAll rest

def piecesMembers : List (Text × ExactTree) → List (Text × List Text)
  | [] => []
  | (key, value) :: rest => (key, pieces value) :: piecesMembers rest

end

/-- `WireDocument` -/
structure WireDocument where
  value : ExactTree
  limits : Limits

/-- The loop of `WireDocument.encode`. -/
def encodeLoop (limits : Limits) (output : List UInt8) : List Text → Except WireError (List UInt8)
  | [] => .ok output
  | piece :: rest =>
    -- Bound even a directly constructed giant numeric token before encoding it.
    if limits.maxBodyBytes - output.length < piece.length then .error .limits
    else
      match piece.encode with
      | none => .error .unicode
      | some encoded =>
        if limits.maxBodyBytes - output.length < encoded.length then .error .limits
        else encodeLoop limits (output ++ encoded) rest

def WireDocument.encode (document : WireDocument) : Except WireError (List UInt8) :=
  encodeLoop document.limits [] (pieces document.value)

/-- `WireDocument.__init__` -/
def WireDocument.make (value : ExactTree) (limits : Limits) : Except WireError WireDocument := do
  let frozen ← freeze value limits
  let document : WireDocument := ⟨frozen, limits⟩
  let _ ← document.encode
  return document

section
variable {limits : Limits}

theorem charge_ok {depth count charged : Nat} (passed : charge limits depth count = .ok charged) :
    charged = count + 1 ∧ count + 1 ≤ limits.maxJsonItems ∧ depth ≤ limits.maxJsonDepth := by
  unfold charge at passed
  split at passed
  · cases passed
  · cases passed
    exact ⟨rfl, by omega, by omega⟩

theorem charge_passes {depth count : Nat} (items : count + 1 ≤ limits.maxJsonItems) (deep : depth ≤ limits.maxJsonDepth) :
    charge limits depth count = .ok (count + 1) :=
  if_neg (by omega)

/-- What `_string_limit` admits. -/
def Admitted (limits : Limits) (value : Text) : Prop :=
  value.length ≤ limits.maxStringLength ∧ value.any CodePoint.isSurrogate = false

theorem stringLimit_ok {value : Text} (passed : stringLimit value limits = .ok ()) : Admitted limits value := by
  unfold stringLimit at passed
  split at passed
  · cases passed
  split at passed
  · cases passed
  · rename_i short plain
    exact ⟨Nat.not_lt.mp short, by simpa using plain⟩

theorem stringLimit_passes {value : Text} (admitted : Admitted limits value) : stringLimit value limits = .ok () := by
  unfold stringLimit
  rw [if_neg (Nat.not_lt.mpr admitted.1), if_neg (by rw [admitted.2]; decide)]

/-- The bounds that a tree at a depth and after a count must keep. -/
structure Within (limits : Limits) (tree : ExactTree) (depth count : Nat) : Prop where
  items : count + tree.items ≤ limits.maxJsonItems
  depth : depth + tree.depth ≤ limits.maxJsonDepth
  strings : tree.Strings (Admitted limits)

theorem visitAll_ok {values frozen : List ExactTree} {depth count counted : Nat}
    (each : ∀ value ∈ values, ∀ {frozen depth count counted}, visit limits value depth count = .ok (frozen, counted) →
      frozen = value ∧ counted = count + value.items ∧ Within limits value depth count)
    (passed : visitAll limits values depth count = .ok (frozen, counted)) :
    frozen = values ∧ counted = count + ExactTree.itemsAll values ∧
      (∀ value ∈ values, value.Strings (Admitted limits) ∧ depth + value.depth ≤ limits.maxJsonDepth) ∧
      (count ≤ limits.maxJsonItems → counted ≤ limits.maxJsonItems) := by
  induction values generalizing frozen count with
  | nil =>
    cases passed
    exact ⟨rfl, rfl, by simp, id⟩
  | cons value rest ih =>
    rw [List.forall_mem_cons] at each
    obtain ⟨⟨first, after⟩, visited, passed⟩ := bind_ok passed
    obtain ⟨⟨others, last⟩, visitedRest, passed⟩ := bind_ok passed
    cases passed
    obtain ⟨rfl, rfl, within⟩ := each.1 visited
    obtain ⟨rfl, counts, all, bound⟩ := ih each.2 visitedRest
    refine ⟨rfl, ?_, List.forall_mem_cons.mpr ⟨⟨within.strings, within.depth⟩, all⟩, fun _ => bound within.items⟩
    rw [counts, ExactTree.itemsAll, Nat.add_assoc]

theorem visitMembers_ok {members : List (Text × ExactTree)} {result frozen : Dict Text ExactTree} {depth count counted : Nat}
    (each : ∀ member ∈ members, ∀ {frozen depth count counted}, visit limits member.2 depth count = .ok (frozen, counted) →
      frozen = member.2 ∧ counted = count + member.2.items ∧ Within limits member.2 depth count)
    (distinct : (result.keys ++ members.map Prod.fst).Nodup)
    (passed : visitMembers limits members depth result count = .ok (frozen, counted)) :
    frozen.items = result.items ++ members ∧ counted = count + ExactTree.itemsMembers members ∧
      (∀ member ∈ members, (Admitted limits member.1 ∧ member.2.Strings (Admitted limits)) ∧
        depth + member.2.depth ≤ limits.maxJsonDepth) ∧
      (count ≤ limits.maxJsonItems → counted ≤ limits.maxJsonItems) := by
  induction members generalizing result count with
  | nil =>
    cases passed
    exact ⟨(List.append_nil _).symm, rfl, by simp, id⟩
  | cons member rest ih =>
    obtain ⟨key, value⟩ := member
    rw [List.forall_mem_cons] at each
    obtain ⟨⟨⟩, keyed, passed⟩ := bind_ok passed
    obtain ⟨⟨child, after⟩, visited, passed⟩ := bind_ok passed
    obtain ⟨rfl, rfl, within⟩ := each.1 visited
    have absent : key ∉ result.keys := by
      intro present
      exact (List.nodup_append.mp distinct).2.2 key present key (by simp) rfl
    have next : ((result.set key child).keys ++ rest.map Prod.fst).Nodup := by
      rw [Dict.keys_set_of_absent absent, List.append_assoc]
      exact distinct
    obtain ⟨same, counts, all, bound⟩ := ih each.2 next passed
    rw [Dict.items_set_of_absent absent, List.append_assoc] at same
    refine ⟨same, ?_, List.forall_mem_cons.mpr ⟨⟨⟨stringLimit_ok keyed, within.strings⟩, within.depth⟩, all⟩,
      fun _ => bound within.items⟩
    rw [counts, ExactTree.itemsMembers, Nat.add_assoc]

/-- A value that passes `_freeze` is not changed by it and keeps the bounds. -/
theorem visit_ok {tree : ExactTree} (proper : tree.Proper) {frozen : ExactTree} {depth count counted : Nat}
    (passed : visit limits tree depth count = .ok (frozen, counted)) :
    frozen = tree ∧ counted = count + tree.items ∧ Within limits tree depth count := by
  induction tree using ExactTree.induct generalizing frozen depth count counted with
  | null =>
    obtain ⟨charged, paid, passed⟩ := bind_ok passed
    cases passed
    obtain ⟨rfl, items, deep⟩ := charge_ok paid
    exact ⟨rfl, rfl, ⟨items, deep, trivial⟩⟩
  | bool value =>
    obtain ⟨charged, paid, passed⟩ := bind_ok passed
    cases passed
    obtain ⟨rfl, items, deep⟩ := charge_ok paid
    exact ⟨rfl, rfl, ⟨items, deep, trivial⟩⟩
  | number value =>
    obtain ⟨charged, paid, passed⟩ := bind_ok passed
    cases passed
    obtain ⟨rfl, items, deep⟩ := charge_ok paid
    exact ⟨rfl, rfl, ⟨items, deep, trivial⟩⟩
  | str value =>
    obtain ⟨charged, paid, passed⟩ := bind_ok passed
    obtain ⟨⟨⟩, admitted, passed⟩ := bind_ok passed
    cases passed
    obtain ⟨rfl, items, deep⟩ := charge_ok paid
    exact ⟨rfl, rfl, ⟨items, deep, stringLimit_ok admitted⟩⟩
  | array values ih =>
    rw [ExactTree.Proper, ExactTree.properAll_iff] at proper
    obtain ⟨charged, paid, passed⟩ := bind_ok passed
    obtain ⟨⟨all, last⟩, visited, passed⟩ := bind_ok passed
    cases passed
    obtain ⟨rfl, items, deep⟩ := charge_ok paid
    obtain ⟨rfl, counts, each, bound⟩ := visitAll_ok (fun value member => ih value member (proper value member)) visited
    have total : counted = count + (ExactTree.array all).items := by
      rw [counts, ExactTree.items, Nat.add_assoc]
    refine ⟨rfl, total, ⟨total ▸ bound items, ?_, ?_⟩⟩
    · have below : ExactTree.depthAll all ≤ limits.maxJsonDepth - depth := by
        rw [ExactTree.depthAll_le]
        intro value member
        have inner := (each value member).2
        omega
      rw [ExactTree.depth]
      omega
    · rw [ExactTree.Strings, ExactTree.stringsAll_iff]
      exact fun value member => (each value member).1
  | object members ih =>
    rw [ExactTree.Proper, ExactTree.properMembers_iff] at proper
    obtain ⟨charged, paid, passed⟩ := bind_ok passed
    obtain ⟨⟨all, last⟩, visited, passed⟩ := bind_ok passed
    cases passed
    obtain ⟨rfl, items, deep⟩ := charge_ok paid
    have start : ((Dict.empty : Dict Text ExactTree).keys ++ members.map Prod.fst).Nodup := proper.1
    obtain ⟨same, counts, each, bound⟩ :=
      visitMembers_ok (fun member found => ih member found (proper.2 member found)) start visited
    have total : counted = count + (ExactTree.object members).items := by
      rw [counts, ExactTree.items, Nat.add_assoc]
    refine ⟨congrArg _ same, total, ⟨total ▸ bound items, ?_, ?_⟩⟩
    · have below : ExactTree.depthMembers members ≤ limits.maxJsonDepth - depth := by
        rw [ExactTree.depthMembers_le]
        intro member found
        have inner := (each member found).2
        omega
      rw [ExactTree.depth]
      omega
    · rw [ExactTree.Strings, ExactTree.stringsMembers_iff]
      exact fun member found => (each member found).1

theorem visitAll_passes {values : List ExactTree} {depth count : Nat}
    (each : ∀ value ∈ values, ∀ {depth count}, Within limits value depth count →
      visit limits value depth count = .ok (value, count + value.items))
    (items : count + ExactTree.itemsAll values ≤ limits.maxJsonItems)
    (all : ∀ value ∈ values, value.Strings (Admitted limits) ∧ depth + value.depth ≤ limits.maxJsonDepth) :
    visitAll limits values depth count = .ok (values, count + ExactTree.itemsAll values) := by
  induction values generalizing count with
  | nil => rfl
  | cons value rest ih =>
    rw [List.forall_mem_cons] at each all
    rw [ExactTree.itemsAll] at items ⊢
    have within : Within limits value depth count := ⟨by omega, all.1.2, all.1.1⟩
    have first := each.1 within
    have later := ih each.2 (by omega : count + value.items + ExactTree.itemsAll rest ≤ _) all.2
    rw [visitAll, first]
    change (visitAll limits rest depth (count + value.items) >>= _) = _
    rw [later, ← Nat.add_assoc]
    rfl

theorem visitMembers_passes {members : List (Text × ExactTree)} {result : Dict Text ExactTree} {depth count : Nat}
    (each : ∀ member ∈ members, ∀ {depth count}, Within limits member.2 depth count →
      visit limits member.2 depth count = .ok (member.2, count + member.2.items))
    (distinct : (result.keys ++ members.map Prod.fst).Nodup)
    (items : count + ExactTree.itemsMembers members ≤ limits.maxJsonItems)
    (all : ∀ member ∈ members, (Admitted limits member.1 ∧ member.2.Strings (Admitted limits)) ∧
      depth + member.2.depth ≤ limits.maxJsonDepth) :
    ∃ frozen : Dict Text ExactTree, frozen.items = result.items ++ members ∧
      visitMembers limits members depth result count = .ok (frozen, count + ExactTree.itemsMembers members) := by
  induction members generalizing result count with
  | nil => exact ⟨result, (List.append_nil _).symm, rfl⟩
  | cons member rest ih =>
    obtain ⟨key, value⟩ := member
    rw [List.forall_mem_cons] at each all
    rw [ExactTree.itemsMembers] at items ⊢
    have within : Within limits value depth count := ⟨by omega, all.1.2, all.1.1.2⟩
    have first := each.1 within
    have absent : key ∉ result.keys := by
      intro present
      exact (List.nodup_append.mp distinct).2.2 key present key (by simp) rfl
    have next : ((result.set key value).keys ++ rest.map Prod.fst).Nodup := by
      rw [Dict.keys_set_of_absent absent, List.append_assoc]
      exact distinct
    obtain ⟨frozen, same, later⟩ :=
      ih each.2 next (by omega : count + value.items + ExactTree.itemsMembers rest ≤ _) all.2
    rw [Dict.items_set_of_absent absent, List.append_assoc] at same
    refine ⟨frozen, same, ?_⟩
    rw [visitMembers, stringLimit_passes all.1.1.1]
    change (visit limits value depth count >>= fun seen => visitMembers limits rest depth (result.set key seen.1) seen.2) = _
    rw [first]
    change visitMembers limits rest depth (result.set key value) (count + value.items) = _
    rw [later, ← Nat.add_assoc]

/-- A value within the bounds passes `_freeze`. -/
theorem visit_passes {tree : ExactTree} (proper : tree.Proper) {depth count : Nat} (within : Within limits tree depth count) :
    visit limits tree depth count = .ok (tree, count + tree.items) := by
  induction tree using ExactTree.induct generalizing depth count with
  | null =>
    rw [visit, charge_passes within.items (by have := within.depth; omega)]
    rfl
  | bool value =>
    rw [visit, charge_passes within.items (by have := within.depth; omega)]
    rfl
  | number value =>
    rw [visit, charge_passes within.items (by have := within.depth; omega)]
    rfl
  | str value =>
    rw [visit, charge_passes within.items (by have := within.depth; omega)]
    change (stringLimit value limits >>= _) = _
    rw [stringLimit_passes within.strings]
    rfl
  | array values ih =>
    rw [ExactTree.Proper, ExactTree.properAll_iff] at proper
    obtain ⟨items, deep, strings⟩ := within
    rw [ExactTree.items] at items
    rw [ExactTree.depth] at deep
    rw [ExactTree.Strings, ExactTree.stringsAll_iff] at strings
    have below := ExactTree.depthAll_le.mp (le_refl (ExactTree.depthAll values))
    have visited := visitAll_passes (fun value member => ih value member (proper value member))
      (by omega : count + 1 + ExactTree.itemsAll values ≤ limits.maxJsonItems)
      (fun value member => ⟨strings value member, by have inner := below value member; omega⟩ :
        ∀ value ∈ values, _ ∧ depth + 1 + value.depth ≤ limits.maxJsonDepth)
    rw [visit, charge_passes (by omega) (by omega)]
    change (visitAll limits values (depth + 1) (count + 1) >>= _) = _
    rw [visited, ExactTree.items, ← Nat.add_assoc]
    rfl
  | object members ih =>
    rw [ExactTree.Proper, ExactTree.properMembers_iff] at proper
    obtain ⟨items, deep, strings⟩ := within
    rw [ExactTree.items] at items
    rw [ExactTree.depth] at deep
    rw [ExactTree.Strings, ExactTree.stringsMembers_iff] at strings
    have below := ExactTree.depthMembers_le.mp (le_refl (ExactTree.depthMembers members))
    have start : ((Dict.empty : Dict Text ExactTree).keys ++ members.map Prod.fst).Nodup := proper.1
    obtain ⟨frozen, same, visited⟩ := visitMembers_passes (fun member found => ih member found (proper.2 member found)) start
      (by omega : count + 1 + ExactTree.itemsMembers members ≤ limits.maxJsonItems)
      (fun member found => ⟨strings member found, by have inner := below member found; omega⟩ :
        ∀ member ∈ members, _ ∧ depth + 1 + member.2.depth ≤ limits.maxJsonDepth)
    rw [visit, charge_passes (by omega) (by omega)]
    change (visitMembers limits members (depth + 1) .empty (count + 1) >>= _) = _
    rw [visited, ExactTree.items, ← Nat.add_assoc]
    change Except.ok (ExactTree.object frozen.items, _) = _
    rw [same]
    rfl

/-- `_freeze` admits exactly the values within the bounds, unchanged. -/
theorem freeze_iff {tree frozen : ExactTree} (proper : tree.Proper) :
    freeze tree limits = .ok frozen ↔ frozen = tree ∧ Within limits tree 0 0 := by
  constructor
  · intro passed
    obtain ⟨⟨seen, counted⟩, visited, passed⟩ := bind_ok passed
    cases passed
    obtain ⟨same, -, within⟩ := visit_ok proper visited
    exact ⟨same, within⟩
  · rintro ⟨rfl, within⟩
    rw [freeze, visit_passes proper within]
    rfl

end

end Pytitect.Wire
