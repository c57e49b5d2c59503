import Pytitect.Lib.Decimal
import Pytitect.Wire.Written

namespace Pytitect
open JsonText Wire

namespace JsonValue

/-- Induction over values: a container has the property when all that it contains has it. -/
@[elab_as_elim] theorem induct {P : JsonValue → Prop} (null : P .null) (bool : ∀ value, P (.bool value))
    (int : ∀ value, P (.int value)) (float : ∀ bits, P (.float bits)) (str : ∀ value, P (.str value))
    (list : ∀ items, (∀ item ∈ items, P item) → P (.list items))
    (dict : ∀ members, (∀ member ∈ members, P member.2) → P (.dict members)) (value : JsonValue) : P value := by
  refine @JsonValue.rec P (fun items => ∀ item ∈ items, P item) (fun members => ∀ member ∈ members, P member.2)
    (fun member => P member.2) null bool int float str list dict ?_ ?_ ?_ ?_ ?_ value
  · intro item member
    cases member
  · intro head tail found rest
    exact List.forall_mem_cons.mpr ⟨found, rest⟩
  · intro item member
    cases member
  · intro head tail found rest
    exact List.forall_mem_cons.mpr ⟨found, rest⟩
  · intro key value found
    exact found

mutual

/-- Every integer and every float of a value passes its test. -/
def Numbers (ints : Int → Prop) (floats : UInt64 → Prop) : JsonValue → Prop
  | .int value => ints value
  | .float bits => floats bits
  | .list items => NumbersAll ints floats items
  | .dict members => NumbersMembers ints floats members
  | _ => True

def NumbersAll (ints : Int → Prop) (floats : UInt64 → Prop) : List JsonValue → Prop
  | [] => True
  | item :: rest => Numbers ints floats item ∧ NumbersAll ints floats rest

def NumbersMembers (ints : Int → Prop) (floats : UInt64 → Prop) : List (Text × JsonValue) → Prop
  | [] => True
  | (_, item) :: rest => Numbers ints floats item ∧ NumbersMembers ints floats rest

end

mutual

/-- A `dict` has no key twice. -/
def Proper : JsonValue → Prop
  | .list items => ProperAll items
  | .dict members => (members.map Prod.fst).Nodup ∧ ProperMembers members
  | _ => True

def ProperAll : List JsonValue → Prop
  | [] => True
  | item :: rest => Proper item ∧ ProperAll rest

def ProperMembers : List (Text × JsonValue) → Prop
  | [] => True
  | (_, item) :: rest => Proper item ∧ ProperMembers rest

end

mutual

/-- The value with the members of every object in the order of their keys. -/
def canonical : JsonValue → JsonValue
  | .list items => .list (canonicalAll items)
  | .dict members => .dict (arranged (canonicalMembers members))
  | .null => .null
  | .bool value => .bool value
  | .int value => .int value
  | .float bits => .float bits
  | .str value => .str value

def canonicalAll : List JsonValue → List JsonValue
  | [] => []
  | item :: rest => canonical item :: canonicalAll rest

def canonicalMembers : List (Text × JsonValue) → List (Text × JsonValue)
  | [] => []
  | (key, item) :: rest => (key, canonical item) :: canonicalMembers rest

end

/-- Equal as JSON: the order of members does not count. -/
def Same (first second : JsonValue) : Prop := first.canonical = second.canonical

theorem Same.refl (value : JsonValue) : value.Same value := Eq.refl _

theorem Same.symm {first second : JsonValue} (same : first.Same second) : second.Same first := Eq.symm same

theorem Same.trans {first second third : JsonValue} (same : first.Same second) (same' : second.Same third) :
    first.Same third := Eq.trans same same'

section
variable {items : List JsonValue} {members : List (Text × JsonValue)} {ints : Int → Prop} {floats : UInt64 → Prop}

theorem numbersAll_iff : NumbersAll ints floats items ↔ ∀ item ∈ items, item.Numbers ints floats := by
  induction items with
  | nil => simp [NumbersAll]
  | cons item rest ih => simp [NumbersAll, ih]

theorem numbersMembers_iff : NumbersMembers ints floats members ↔ ∀ member ∈ members, member.2.Numbers ints floats := by
  induction members with
  | nil => simp [NumbersMembers]
  | cons member rest ih => simp only [NumbersMembers, List.forall_mem_cons, ih]

theorem properAll_iff : ProperAll items ↔ ∀ item ∈ items, item.Proper := by
  induction items with
  | nil => simp [ProperAll]
  | cons item rest ih => simp [ProperAll, ih]

theorem properMembers_iff : ProperMembers members ↔ ∀ member ∈ members, member.2.Proper := by
  induction members with
  | nil => simp [ProperMembers]
  | cons member rest ih => simp only [ProperMembers, List.forall_mem_cons, ih]

theorem canonicalAll_eq : canonicalAll items = items.map canonical := by
  induction items with
  | nil => rfl
  | cons item rest ih => simp [canonicalAll, ih]

theorem canonicalMembers_eq : canonicalMembers members = members.map fun member => (member.1, member.2.canonical) := by
  induction members with
  | nil => rfl
  | cons member rest ih => simp [canonicalMembers, ih]

end

end JsonValue

/-- JSON as Python holds it: no `dict` has a key twice. -/
structure Json where
  value : JsonValue
  proper : value.Proper

/-- What the interpreter decides about numbers: how it writes a finite float, and how many
digits of an integer it writes at most, or that it writes all when this is zero. -/
structure Interpreter where
  floatToken : UInt64 → ExactNumber
  maxStrDigits : Nat

namespace JsonValue
variable (interpreter : Interpreter)

/-- The token of an integer. -/
def intToken (n : Int) : ExactNumber := ⟨Decimal.signed n, isNumber_iff.mpr (Decimal.signed_number n)⟩

mutual

/-- A value with its numbers as tokens. -/
def exact : JsonValue → ExactTree
  | .null => .null
  | .bool value => .bool value
  | .int value => .number (intToken value)
  | .float bits => .number (interpreter.floatToken bits)
  | .str value => .str value
  | .list items => .array (exactAll items)
  | .dict members => .object (exactMembers members)

def exactAll : List JsonValue → List ExactTree
  | [] => []
  | item :: rest => exact item :: exactAll rest

def exactMembers : List (Text × JsonValue) → List (Text × ExactTree)
  | [] => []
  | (key, item) :: rest => (key, exact item) :: exactMembers rest

end

/-- An integer that the interpreter writes. -/
def Writes (n : Int) : Prop :=
  interpreter.maxStrDigits = 0 ∨ (Decimal.numeral n.natAbs).length ≤ interpreter.maxStrDigits

instance (n : Int) : Decidable (Writes interpreter n) := by
  unfold Writes
  infer_instance

/-- `int.__repr__` -/
def intRepr (n : Int) : Except PyError Text :=
  if Writes interpreter n then .ok (Decimal.signed n)
  else .error (.valueError "Exceeds the limit for integer string conversion")

mutual

/-- `json.dumps` with `ensure_ascii=False` and `separators=(",", ":")`. -/
def dumps (sortKeys : Bool) : JsonValue → Except PyError Text
  | .null => .ok nullWord
  | .bool true => .ok trueWord
  | .bool false => .ok falseWord
  | .int value => intRepr interpreter value
  | .float bits => .ok (interpreter.floatToken bits).token
  | .str value => .ok (Wire.dumps value)
  | .list items => do
    let entries ← dumpsAll sortKeys items
    return openArray :: (joined entries ++ [closeArray])
  | .dict members => do
    let entries ← dumpsMembers sortKeys members
    let ordered := if sortKeys then arranged entries else entries
    return openObject :: (joined (ordered.map fun entry => Wire.dumps entry.1 ++ colon :: entry.2) ++ [closeObject])

def dumpsAll (sortKeys : Bool) : List JsonValue → Except PyError (List Text)
  | [] => .ok []
  | item :: rest => do
    let entry ← dumps sortKeys item
    let entries ← dumpsAll sortKeys rest
    return entry :: entries

def dumpsMembers (sortKeys : Bool) : List (Text × JsonValue) → Except PyError (List (Text × Text))
  | [] => .ok []
  | (key, item) :: rest => do
    let entry ← dumps sortKeys item
    let entries ← dumpsMembers sortKeys rest
    return (key, entry) :: entries

end

section
variable {interpreter} {items : List JsonValue} {members : List (Text × JsonValue)} {value : JsonValue} {limits : Limits}

theorem exactAll_eq : exactAll interpreter items = items.map (exact interpreter) := by
  induction items with
  | nil => rfl
  | cons item rest ih => rw [exactAll, ih, List.map_cons]

theorem exactMembers_eq :
    exactMembers interpreter members = members.map fun member => (member.1, member.2.exact interpreter) := by
  induction members with
  | nil => rfl
  | cons member rest ih => rw [exactMembers, ih, List.map_cons]

theorem exact_proper (proper : value.Proper) : (value.exact interpreter).Proper := by
  induction value using induct with
  | null => trivial
  | bool value => trivial
  | int value => trivial
  | float bits => trivial
  | str value => trivial
  | list items ih =>
    rw [Proper, properAll_iff] at proper
    rw [exact, ExactTree.Proper, ExactTree.properAll_iff, exactAll_eq, List.forall_mem_map]
    exact fun item member => ih item member (proper item member)
  | dict members ih =>
    rw [Proper, properMembers_iff] at proper
    rw [exact, ExactTree.Proper, ExactTree.properMembers_iff, exactMembers_eq, List.map_map, List.forall_mem_map]
    exact ⟨proper.1, fun member found => ih member found (proper.2 member found)⟩

theorem canonical_dict :
    (dict members).canonical = .dict ((arranged members).map fun member => (member.1, member.2.canonical)) := by
  rw [canonical, canonicalMembers_eq, arranged_map]

theorem exact_canonical (value : JsonValue) :
    value.canonical.exact interpreter = (value.exact interpreter).canonical := by
  induction value using induct with
  | null => rfl
  | bool value => rfl
  | int value => rfl
  | float bits => rfl
  | str value => rfl
  | list items ih =>
    rw [canonical, exact, exact, ExactTree.canonical, canonicalAll_eq, exactAll_eq, exactAll_eq,
      ExactTree.canonicalAll_eq, List.map_map, List.map_map]
    exact congrArg _ (List.map_congr_left ih)
  | dict members ih =>
    rw [canonical_dict, exact, exact, ExactTree.canonical_object, exactMembers_eq, exactMembers_eq, arranged_map,
      List.map_map, List.map_map]
    refine congrArg _ (List.map_congr_left fun member found => ?_)
    exact Prod.ext rfl (ih member (mem_arranged.mp found))

theorem charge_iff {depth count charged : Nat} : charge limits depth count = .ok charged ↔
    charged = count + 1 ∧ count + 1 ≤ limits.maxJsonItems ∧ depth ≤ limits.maxJsonDepth := by
  unfold charge
  split
  · refine ⟨fun absurd => (by cases absurd), fun holds => ?_⟩
    omega
  split
  · refine ⟨fun absurd => (by cases absurd), fun holds => ?_⟩
    omega
  · rw [Except.ok.injEq]
    omega

/-- What `validate_json` requires of a value at a depth, its count apart. -/
structure Admissible (interpreter : Interpreter) (limits : Limits) (depth : Nat) (value : JsonValue) : Prop where
  depth : depth + (value.exact interpreter).depth ≤ limits.maxJsonDepth
  strings : (value.exact interpreter).Strings fun text => text.length ≤ limits.maxStringLength
  finite : value.Numbers (fun _ => True) fun bits => isFinite bits = true

theorem visitItems_iff {depth count counted : Nat} (room : count ≤ limits.maxJsonItems)
    (each : ∀ item ∈ items, ∀ {count counted : Nat}, visit limits item depth count = .ok counted ↔
      counted = count + (item.exact interpreter).items ∧ counted ≤ limits.maxJsonItems ∧
        Admissible interpreter limits depth item) :
    visitItems limits items depth count = .ok counted ↔
      counted = count + ExactTree.itemsAll (exactAll interpreter items) ∧ counted ≤ limits.maxJsonItems ∧
        ∀ item ∈ items, Admissible interpreter limits depth item := by
  induction items generalizing count with
  | nil =>
    rw [visitItems, Except.ok.injEq]
    constructor
    · rintro rfl
      exact ⟨rfl, room, by simp⟩
    · rintro ⟨same, -, -⟩
      exact same.symm
  | cons item rest ih =>
    rw [List.forall_mem_cons] at each
    rw [visitItems, bind_ok_iff, exactAll, ExactTree.itemsAll, List.forall_mem_cons]
    constructor
    · rintro ⟨found, visited, later⟩
      obtain ⟨rfl, bound, admissible⟩ := each.1.mp visited
      obtain ⟨counts, within, all⟩ := (ih bound each.2).mp later
      exact ⟨by omega, within, admissible, all⟩
    · rintro ⟨counts, within, admissible, all⟩
      have bound : count + (item.exact interpreter).items ≤ limits.maxJsonItems := by omega
      exact ⟨_, each.1.mpr ⟨rfl, bound, admissible⟩, (ih bound each.2).mpr ⟨by omega, within, all⟩⟩

theorem visitMembers_iff {depth count counted : Nat} (room : count ≤ limits.maxJsonItems)
    (each : ∀ member ∈ members, ∀ {count counted : Nat}, visit limits member.2 depth count = .ok counted ↔
      counted = count + (member.2.exact interpreter).items ∧ counted ≤ limits.maxJsonItems ∧
        Admissible interpreter limits depth member.2) :
    visitMembers limits members depth count = .ok counted ↔
      counted = count + ExactTree.itemsMembers (exactMembers interpreter members) ∧ counted ≤ limits.maxJsonItems ∧
        ∀ member ∈ members, member.1.length ≤ limits.maxStringLength ∧ Admissible interpreter limits depth member.2 := by
  induction members generalizing count with
  | nil =>
    rw [visitMembers, Except.ok.injEq]
    constructor
    · rintro rfl
      exact ⟨rfl, room, by simp⟩
    · rintro ⟨same, -, -⟩
      exact same.symm
  | cons member rest ih =>
    obtain ⟨key, item⟩ := member
    rw [List.forall_mem_cons] at each
    dsimp only at each
    rw [visitMembers, exactMembers, ExactTree.itemsMembers, List.forall_mem_cons]
    split
    · rename_i long
      refine ⟨fun absurd => (by cases absurd), fun holds => ?_⟩
      exact absurd holds.2.2.1.1 (Nat.not_le.mpr long)
    rename_i short
    rw [bind_ok_iff]
    constructor
    · rintro ⟨found, visited, later⟩
      obtain ⟨rfl, bound, admissible⟩ := each.1.mp visited
      obtain ⟨counts, within, all⟩ := (ih bound each.2).mp later
      exact ⟨by omega, within, ⟨Nat.not_lt.mp short, admissible⟩, all⟩
    · rintro ⟨counts, within, ⟨-, admissible⟩, all⟩
      have bound : count + (item.exact interpreter).items ≤ limits.maxJsonItems := by omega
      exact ⟨_, each.1.mpr ⟨rfl, bound, admissible⟩, (ih bound each.2).mpr ⟨by omega, within, all⟩⟩

/-- The items of a list one level deeper are those of the list. -/
theorem admissible_list {depth : Nat} : Admissible interpreter limits depth (.list items) ∧ depth ≤ limits.maxJsonDepth ↔
    depth ≤ limits.maxJsonDepth ∧ ∀ item ∈ items, Admissible interpreter limits (depth + 1) item := by
  constructor
  · rintro ⟨⟨deep, strings, finite⟩, level⟩
    rw [exact, exactAll_eq] at deep strings
    rw [ExactTree.Strings, ExactTree.stringsAll_iff, List.forall_mem_map] at strings
    rw [Numbers, numbersAll_iff] at finite
    refine ⟨level, fun item member => ⟨?_, strings item member, finite item member⟩⟩
    have below : ExactTree.depthAll (items.map (exact interpreter)) ≤ limits.maxJsonDepth - depth := by
      rw [ExactTree.depth] at deep
      omega
    rw [ExactTree.depthAll_le, List.forall_mem_map] at below
    have inner := below item member
    omega
  · rintro ⟨level, all⟩
    refine ⟨⟨?_, ?_, ?_⟩, level⟩
    · have below : ExactTree.depthAll (items.map (exact interpreter)) ≤ limits.maxJsonDepth - depth := by
        rw [ExactTree.depthAll_le, List.forall_mem_map]
        intro item member
        have inner := (all item member).depth
        omega
      rw [exact, exactAll_eq, ExactTree.depth]
      omega
    · rw [exact, exactAll_eq, ExactTree.Strings, ExactTree.stringsAll_iff, List.forall_mem_map]
      exact fun item member => (all item member).strings
    · rw [Numbers, numbersAll_iff]
      exact fun item member => (all item member).finite

theorem admissible_dict {depth : Nat} :
    Admissible interpreter limits depth (.dict members) ∧ depth ≤ limits.maxJsonDepth ↔
      depth ≤ limits.maxJsonDepth ∧ ∀ member ∈ members, member.1.length ≤ limits.maxStringLength ∧
        Admissible interpreter limits (depth + 1) member.2 := by
  constructor
  · rintro ⟨⟨deep, strings, finite⟩, level⟩
    rw [exact, exactMembers_eq] at deep strings
    rw [ExactTree.Strings, ExactTree.stringsMembers_iff, List.forall_mem_map] at strings
    rw [Numbers, numbersMembers_iff] at finite
    refine ⟨level, fun member found => ⟨(strings member found).1, ?_, (strings member found).2, finite member found⟩⟩
    have below : ExactTree.depthMembers (members.map fun member => (member.1, member.2.exact interpreter)) ≤
        limits.maxJsonDepth - depth := by
      rw [ExactTree.depth] at deep
      omega
    rw [ExactTree.depthMembers_le, List.forall_mem_map] at below
    have inner := below member found
    dsimp only at inner
    omega
  · rintro ⟨level, all⟩
    refine ⟨⟨?_, ?_, ?_⟩, level⟩
    · have below : ExactTree.depthMembers (members.map fun member => (member.1, member.2.exact interpreter)) ≤
          limits.maxJsonDepth - depth := by
        rw [ExactTree.depthMembers_le, List.forall_mem_map]
        intro member found
        have inner := (all member found).2.depth
        dsimp only
        omega
      rw [exact, exactMembers_eq, ExactTree.depth]
      omega
    · rw [exact, exactMembers_eq, ExactTree.Strings, ExactTree.stringsMembers_iff, List.forall_mem_map]
      exact fun member found => ⟨(all member found).1, (all member found).2.strings⟩
    · rw [Numbers, numbersMembers_iff]
      exact fun member found => (all member found).2.finite

theorem visit_iff (interpreter : Interpreter) {depth count counted : Nat} : visit limits value depth count = .ok counted ↔
    counted = count + (value.exact interpreter).items ∧ counted ≤ limits.maxJsonItems ∧
      Admissible interpreter limits depth value := by
  have scalar : ∀ (value : JsonValue) {depth count counted : Nat}, (value.exact interpreter).items = 1 →
      (value.exact interpreter).depth = 0 →
      ((value.exact interpreter).Strings fun text => text.length ≤ limits.maxStringLength) →
      (value.Numbers (fun _ => True) fun bits => isFinite bits = true) →
      (charge limits depth count = .ok counted ↔ counted = count + (value.exact interpreter).items ∧
        counted ≤ limits.maxJsonItems ∧ Admissible interpreter limits depth value) := by
    intro value depth count counted one flat strings finite
    rw [charge_iff, one]
    constructor
    · rintro ⟨rfl, items, deep⟩
      exact ⟨rfl, items, by omega, strings, finite⟩
    · rintro ⟨rfl, items, deep, -, -⟩
      exact ⟨rfl, items, by omega⟩
  induction value using induct generalizing depth count counted with
  | null => exact scalar _ rfl rfl trivial trivial
  | bool value => exact scalar _ rfl rfl trivial trivial
  | int value => exact scalar _ rfl rfl trivial trivial
  | float bits =>
    rw [visit, bind_ok_iff]
    constructor
    · rintro ⟨charged, paid, passed⟩
      split at passed
      · rename_i finite
        cases passed
        exact (scalar (.float bits) rfl rfl trivial finite).mp paid
      · cases passed
    · intro holds
      have finite : isFinite bits = true := holds.2.2.finite
      exact ⟨counted, (scalar (.float bits) rfl rfl trivial finite).mpr holds, if_pos finite⟩
  | str text =>
    rw [visit, bind_ok_iff]
    constructor
    · rintro ⟨charged, paid, passed⟩
      split at passed
      · cases passed
      · rename_i short
        cases passed
        exact (scalar (.str text) rfl rfl (Nat.not_lt.mp short) trivial).mp paid
    · intro holds
      have short : text.length ≤ limits.maxStringLength := holds.2.2.strings
      exact ⟨counted, (scalar (.str text) rfl rfl short trivial).mpr holds, if_neg (Nat.not_lt.mpr short)⟩
  | list items ih =>
    rw [visit, bind_ok_iff, exact, ExactTree.items]
    constructor
    · rintro ⟨charged, paid, passed⟩
      obtain ⟨rfl, room, level⟩ := charge_iff.mp paid
      obtain ⟨counts, within, all⟩ := (visitItems_iff room fun item member => ih item member).mp passed
      exact ⟨by omega, within, (admissible_list.mpr ⟨level, all⟩).1⟩
    · rintro ⟨counts, within, admissible⟩
      have deep := admissible.depth
      obtain ⟨level, all⟩ := admissible_list.mp ⟨admissible, by omega⟩
      have room : count + 1 ≤ limits.maxJsonItems := by omega
      exact ⟨count + 1, charge_iff.mpr ⟨rfl, room, level⟩,
        (visitItems_iff room fun item member => ih item member).mpr ⟨by omega, within, all⟩⟩
  | dict members ih =>
    rw [visit, bind_ok_iff, exact, ExactTree.items]
    constructor
    · rintro ⟨charged, paid, passed⟩
      obtain ⟨rfl, room, level⟩ := charge_iff.mp paid
      obtain ⟨counts, within, all⟩ := (visitMembers_iff room fun member found => ih member found).mp passed
      exact ⟨by omega, within, (admissible_dict.mpr ⟨level, all⟩).1⟩
    · rintro ⟨counts, within, admissible⟩
      have deep := admissible.depth
      obtain ⟨level, all⟩ := admissible_dict.mp ⟨admissible, by omega⟩
      have room : count + 1 ≤ limits.maxJsonItems := by omega
      exact ⟨count + 1, charge_iff.mpr ⟨rfl, room, level⟩,
        (visitMembers_iff room fun member found => ih member found).mpr ⟨by omega, within, all⟩⟩

/-- What `validate_json` accepts. -/
theorem validateJson_iff (interpreter : Interpreter) : validateJson value limits = .ok () ↔
    (value.exact interpreter).items ≤ limits.maxJsonItems ∧ Admissible interpreter limits 0 value := by
  unfold validateJson
  constructor
  · intro passed
    cases visited : value.visit limits 0 0 with
    | error error =>
      rw [visited] at passed
      cases passed
    | ok counted =>
      obtain ⟨rfl, within, admissible⟩ := (visit_iff interpreter).mp visited
      exact ⟨by omega, admissible⟩
  · rintro ⟨within, admissible⟩
    have visited : value.visit limits 0 0 = .ok (0 + (value.exact interpreter).items) :=
      (visit_iff interpreter).mpr ⟨rfl, by omega, admissible⟩
    rw [visited]
    rfl

theorem dumpsAll_iff {sortKeys : Bool} {entries : List Text} {write : JsonValue → Text}
    (each : ∀ item ∈ items, ∀ {text : Text}, dumps interpreter sortKeys item = .ok text ↔
      item.Numbers (Writes interpreter) (fun _ => True) ∧ text = write item) :
    dumpsAll interpreter sortKeys items = .ok entries ↔
      (∀ item ∈ items, item.Numbers (Writes interpreter) fun _ => True) ∧ entries = items.map write := by
  induction items generalizing entries with
  | nil =>
    rw [dumpsAll, Except.ok.injEq]
    exact ⟨fun same => ⟨by simp, same.symm⟩, fun holds => holds.2.symm⟩
  | cons item rest ih =>
    rw [List.forall_mem_cons] at each
    rw [dumpsAll, bind_ok_iff, List.forall_mem_cons, List.map_cons]
    constructor
    · rintro ⟨entry, found, passed⟩
      obtain ⟨others, later, passed⟩ := bind_ok passed
      cases passed
      obtain ⟨first, rfl⟩ := each.1.mp found
      obtain ⟨all, rfl⟩ := (ih each.2).mp later
      exact ⟨⟨first, all⟩, rfl⟩
    · rintro ⟨⟨first, all⟩, rfl⟩
      refine ⟨write item, each.1.mpr ⟨first, rfl⟩, bind_ok_iff.mpr ⟨_, (ih each.2).mpr ⟨all, rfl⟩, rfl⟩⟩

theorem dumpsMembers_iff {sortKeys : Bool} {entries : List (Text × Text)} {write : JsonValue → Text}
    (each : ∀ member ∈ members, ∀ {text : Text}, dumps interpreter sortKeys member.2 = .ok text ↔
      member.2.Numbers (Writes interpreter) (fun _ => True) ∧ text = write member.2) :
    dumpsMembers interpreter sortKeys members = .ok entries ↔
      (∀ member ∈ members, member.2.Numbers (Writes interpreter) fun _ => True) ∧
        entries = members.map fun member => (member.1, write member.2) := by
  induction members generalizing entries with
  | nil =>
    rw [dumpsMembers, Except.ok.injEq]
    exact ⟨fun same => ⟨by simp, same.symm⟩, fun holds => holds.2.symm⟩
  | cons member rest ih =>
    obtain ⟨key, item⟩ := member
    rw [List.forall_mem_cons] at each
    rw [dumpsMembers, bind_ok_iff, List.forall_mem_cons, List.map_cons]
    constructor
    · rintro ⟨entry, found, passed⟩
      obtain ⟨others, later, passed⟩ := bind_ok passed
      cases passed
      obtain ⟨first, rfl⟩ := each.1.mp found
      obtain ⟨all, rfl⟩ := (ih each.2).mp later
      exact ⟨⟨first, all⟩, rfl⟩
    · rintro ⟨⟨first, all⟩, rfl⟩
      refine ⟨write item, each.1.mpr ⟨first, rfl⟩, bind_ok_iff.mpr ⟨_, (ih each.2).mpr ⟨all, rfl⟩, rfl⟩⟩

/-- The text that `json.dumps` writes. -/
def text (interpreter : Interpreter) (sortKeys : Bool) (value : JsonValue) : Text :=
  if sortKeys then rendered (value.exact interpreter) else written (value.exact interpreter)

/-- `json.dumps` writes every value whose integers are short enough. -/
theorem dumps_iff {sortKeys : Bool} {found : Text} : dumps interpreter sortKeys value = .ok found ↔
    value.Numbers (Writes interpreter) (fun _ => True) ∧ found = value.text interpreter sortKeys := by
  have fixed : ∀ {value : JsonValue} {word found : Text}, value.Numbers (Writes interpreter) (fun _ => True) →
      value.text interpreter sortKeys = word → ((Except.ok word : Except PyError Text) = .ok found ↔
        value.Numbers (Writes interpreter) (fun _ => True) ∧ found = value.text interpreter sortKeys) := by
    rintro value word found numbers rfl
    rw [Except.ok.injEq]
    exact ⟨fun same => ⟨numbers, same.symm⟩, fun holds => holds.2.symm⟩
  have sorted : ∀ tree : ExactTree, rendered tree = written tree.canonical := rendered_eq
  induction value using induct generalizing found with
  | null => exact fixed trivial (by cases sortKeys <;> rfl)
  | bool value => cases value <;> exact fixed trivial (by cases sortKeys <;> rfl)
  | int value =>
    rw [dumps, intRepr]
    split
    · rename_i short
      refine @fixed (.int value) _ _ short ?_
      cases sortKeys <;> simp [text, sorted, exact, ExactTree.canonical, written, intToken]
    · rename_i long
      exact ⟨fun absurd => (by cases absurd), fun holds => absurd holds.1 long⟩
  | float bits => exact fixed trivial (by cases sortKeys <;> simp [text, sorted, exact, ExactTree.canonical, written])
  | str value => exact fixed trivial (by cases sortKeys <;> simp [text, sorted, exact, ExactTree.canonical, written])
  | list items ih =>
    have entries : ∀ {texts : List Text}, dumpsAll interpreter sortKeys items = .ok texts ↔
        (∀ item ∈ items, item.Numbers (Writes interpreter) fun _ => True) ∧ texts = items.map (text interpreter sortKeys) :=
      dumpsAll_iff fun item member => ih item member
    rw [dumps, bind_ok_iff, Numbers, numbersAll_iff]
    have whole : (list items).text interpreter sortKeys =
        openArray :: (joined (items.map (text interpreter sortKeys)) ++ [closeArray]) := by
      cases sortKeys with
      | false =>
        change written _ = _
        rw [exact, written, writtenAll_eq, exactAll_eq, List.map_map]
        rfl
      | true =>
        change rendered _ = _
        rw [sorted, exact, ExactTree.canonical, written, writtenAll_eq, ExactTree.canonicalAll_eq, exactAll_eq,
          List.map_map, List.map_map]
        have same : items.map ((written ∘ ExactTree.canonical) ∘ exact interpreter) = items.map (text interpreter true) :=
          List.map_congr_left fun item _ => (sorted _).symm
        rw [same]
    constructor
    · rintro ⟨texts, passed, rest⟩
      cases rest
      obtain ⟨all, rfl⟩ := entries.mp passed
      exact ⟨all, whole.symm⟩
    · rintro ⟨all, rfl⟩
      exact ⟨_, entries.mpr ⟨all, rfl⟩, congrArg _ whole.symm⟩
  | dict members ih =>
    have entries : ∀ {texts : List (Text × Text)}, dumpsMembers interpreter sortKeys members = .ok texts ↔
        (∀ member ∈ members, member.2.Numbers (Writes interpreter) fun _ => True) ∧
          texts = members.map fun member => (member.1, text interpreter sortKeys member.2) :=
      dumpsMembers_iff fun member found => ih member found
    rw [dumps, bind_ok_iff, Numbers, numbersMembers_iff]
    have whole : (dict members).text interpreter sortKeys =
        openObject :: (joined ((if sortKeys then
          arranged (members.map fun member => (member.1, text interpreter sortKeys member.2))
          else members.map fun member => (member.1, text interpreter sortKeys member.2)).map
            fun entry => Wire.dumps entry.1 ++ colon :: entry.2) ++ [closeObject]) := by
      cases sortKeys with
      | false =>
        change written _ = _
        rw [exact, written, writtenMembers_eq, exactMembers_eq, List.map_map, if_neg (by decide), List.map_map]
        rfl
      | true =>
        change rendered _ = _
        rw [sorted, exact, ExactTree.canonical_object, written, writtenMembers_eq, exactMembers_eq, arranged_map,
          List.map_map, List.map_map, if_pos rfl, arranged_map, List.map_map]
        have same : (arranged members).map ((memberWritten ∘ fun member => (member.1, member.2.canonical)) ∘
            fun member => (member.1, member.2.exact interpreter)) =
            (arranged members).map ((fun entry => Wire.dumps entry.1 ++ colon :: entry.2) ∘
              fun member => (member.1, text interpreter true member.2)) := by
          refine List.map_congr_left fun member _ => ?_
          simp only [Function.comp_apply, memberWritten, text, sorted, if_pos]
        rw [same]
    constructor
    · rintro ⟨texts, passed, rest⟩
      cases rest
      obtain ⟨all, rfl⟩ := entries.mp passed
      exact ⟨all, whole.symm⟩
    · rintro ⟨all, rfl⟩
      exact ⟨_, entries.mpr ⟨all, rfl⟩, congrArg _ whole.symm⟩

theorem numbers_canonical {ints : Int → Prop} {floats : UInt64 → Prop} :
    value.canonical.Numbers ints floats ↔ value.Numbers ints floats := by
  induction value using induct with
  | null => exact Iff.rfl
  | bool value => exact Iff.rfl
  | int value => exact Iff.rfl
  | float bits => exact Iff.rfl
  | str value => exact Iff.rfl
  | list items ih =>
    rw [canonical, Numbers, Numbers, numbersAll_iff, numbersAll_iff, canonicalAll_eq, List.forall_mem_map]
    exact forall₂_congr ih
  | dict members ih =>
    rw [canonical_dict, Numbers, Numbers, numbersMembers_iff, numbersMembers_iff, List.forall_mem_map]
    constructor
    · exact fun passed member found => (ih member found).mp (passed member (mem_arranged.mpr found))
    · exact fun passed member found => (ih member (mem_arranged.mp found)).mpr (passed member (mem_arranged.mp found))

theorem Same.numbers {other : JsonValue} {ints : Int → Prop} {floats : UInt64 → Prop} (same : value.Same other) :
    value.Numbers ints floats ↔ other.Numbers ints floats := by
  rw [← numbers_canonical, same, numbers_canonical]

/-- Values that are equal as JSON have one canonical form when they are written. -/
theorem Same.exact {other : JsonValue} (same : value.Same other) :
    (value.exact interpreter).canonical = (other.exact interpreter).canonical := by
  rw [← exact_canonical, same, exact_canonical]

theorem Same.items_eq {other : JsonValue} (same : value.Same other) :
    (value.exact interpreter).items = (other.exact interpreter).items := by
  rw [← ExactTree.items_canonical, same.exact, ExactTree.items_canonical]

theorem Same.strings {other : JsonValue} {test : Text → Prop} (same : value.Same other) :
    (value.exact interpreter).Strings test ↔ (other.exact interpreter).Strings test := by
  rw [← ExactTree.strings_canonical, same.exact, ExactTree.strings_canonical]

theorem Same.weight {other : JsonValue} (same : value.Same other) :
    weight (value.exact interpreter) = weight (other.exact interpreter) := by
  rw [← weight_canonical, same.exact, weight_canonical]

theorem Same.admissible {other : JsonValue} {depth : Nat} (same : value.Same other)
    (admissible : Admissible interpreter limits depth value) : Admissible interpreter limits depth other := by
  obtain ⟨deep, strings, finite⟩ := admissible
  refine ⟨?_, same.strings.mp strings, same.numbers.mp finite⟩
  rwa [← ExactTree.depth_canonical, ← same.exact, ExactTree.depth_canonical]

/-- Objects with the same members are equal as JSON. -/
theorem same_of_perm {others : List (Text × JsonValue)} (distinct : (members.map Prod.fst).Nodup)
    (permuted : members.Perm others) : (dict members).Same (.dict others) := by
  unfold Same
  rw [canonical_dict, canonical_dict, arranged_of_perm distinct permuted]

end

end JsonValue

end Pytitect
