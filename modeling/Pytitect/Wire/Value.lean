import Pytitect.Json
import Pytitect.Lib.JsonText
import Mathlib.Data.List.Sort

namespace Pytitect.Wire
open JsonText

/-- The errors of the wire boundary. `unicode` is Python's own and never leaves
`decode_wire`; `diverged` stands for a loop that does not end. -/
inductive WireError
  | malformed
  | limits
  | shape
  | profile
  | integrity
  | precision
  | unicode
  | diverged
  deriving DecidableEq, Repr

/-- `[0-9]+`, and what follows it. -/
def digits : Text → Option Text
  | c :: rest => if isDigit c then some (rest.dropWhile isDigit) else none
  | [] => none

/-- `-?` -/
def afterSign : Text → Text
  | c :: rest => if c = 0x2d then rest else c :: rest
  | [] => []

/-- `(?:0|[1-9][0-9]*)` -/
def afterInteger : Text → Option Text
  | c :: rest => if c = 0x30 then some rest else digits (c :: rest)
  | [] => none

/-- `(?:\.[0-9]+)?` -/
def afterFraction : Text → Option Text
  | c :: rest => if c = 0x2e then digits rest else some (c :: rest)
  | [] => some []

/-- `[+-]?` -/
def afterExponentSign : Text → Text
  | c :: rest => if c = 0x2b ∨ c = 0x2d then rest else c :: rest
  | [] => []

/-- `(?:[eE][+-]?[0-9]+)?` -/
def afterExponent : Text → Option Text
  | c :: rest => if c = 0x65 ∨ c = 0x45 then digits (afterExponentSign rest) else some (c :: rest)
  | [] => some []

/-- `_NUMBER.fullmatch`. No part of the pattern can give back what it has taken. -/
def isNumber (token : Text) : Bool :=
  (((afterInteger (afterSign token)).bind afterFraction).bind afterExponent) = some []

/-- `ExactNumber`: an original JSON number token. -/
structure ExactNumber where
  token : Text
  proper : isNumber token = true
  deriving DecidableEq

/-- `ExactNumber.__post_init__`. -/
def ExactNumber.ofToken (token : Text) : Except WireError ExactNumber :=
  if proper : isNumber token = true then .ok ⟨token, proper⟩ else .error .malformed

/-- JSON with exact numbers, as it is written: a member may occur twice. -/
inductive ExactTree
  | null
  | bool (value : Bool)
  | number (value : ExactNumber)
  | str (value : Text)
  | array (values : List ExactTree)
  | object (members : List (Text × ExactTree))

/-- `sorted` compares strings by their code points. -/
def precedes : Text → Text → Bool
  | [], _ => true
  | _ :: _, [] => false
  | a :: first, b :: second => a.val < b.val || a = b && precedes first second

/-- Members in the order of their keys. -/
def arranged {β : Type} (members : List (Text × β)) : List (Text × β) :=
  members.insertionSort fun first second => precedes first.1 second.1 = true

namespace ExactTree

mutual

/-- How many values there are in a tree. -/
def items : ExactTree → Nat
  | .array values => 1 + itemsAll values
  | .object members => 1 + itemsMembers members
  | _ => 1

def itemsAll : List ExactTree → Nat
  | [] => 0
  | value :: rest => items value + itemsAll rest

def itemsMembers : List (Text × ExactTree) → Nat
  | [] => 0
  | (_, value) :: rest => items value + itemsMembers rest

end

mutual

/-- How deep a tree is nested. -/
def depth : ExactTree → Nat
  | .array values => depthAll values
  | .object members => depthMembers members
  | _ => 0

def depthAll : List ExactTree → Nat
  | [] => 0
  | value :: rest => max (depth value + 1) (depthAll rest)

def depthMembers : List (Text × ExactTree) → Nat
  | [] => 0
  | (_, value) :: rest => max (depth value + 1) (depthMembers rest)

end

mutual

/-- Every string and every key of a tree passes the test. -/
def Strings (test : Text → Prop) : ExactTree → Prop
  | .str value => test value
  | .array values => StringsAll test values
  | .object members => StringsMembers test members
  | _ => True

def StringsAll (test : Text → Prop) : List ExactTree → Prop
  | [] => True
  | value :: rest => Strings test value ∧ StringsAll test rest

def StringsMembers (test : Text → Prop) : List (Text × ExactTree) → Prop
  | [] => True
  | (key, value) :: rest => test key ∧ Strings test value ∧ StringsMembers test rest

end

mutual

/-- No object has a member twice. -/
def Proper : ExactTree → Prop
  | .array values => ProperAll values
  | .object members => (members.map Prod.fst).Nodup ∧ ProperMembers members
  | _ => True

def ProperAll : List ExactTree → Prop
  | [] => True
  | value :: rest => Proper value ∧ ProperAll rest

def ProperMembers : List (Text × ExactTree) → Prop
  | [] => True
  | (_, value) :: rest => Proper value ∧ ProperMembers rest

end

mutual

/-- The value a tree denotes: of equal members the last wins. -/
def denote : ExactTree → ExactTree
  | .array values => .array (denoteAll values)
  | .object members => .object (denoteMembers .empty members).items
  | .null => .null
  | .bool value => .bool value
  | .number value => .number value
  | .str value => .str value

def denoteAll : List ExactTree → List ExactTree
  | [] => []
  | value :: rest => denote value :: denoteAll rest

def denoteMembers (found : Dict Text ExactTree) : List (Text × ExactTree) → Dict Text ExactTree
  | [] => found
  | (key, value) :: rest => denoteMembers (found.set key (denote value)) rest

end

mutual

/-- `==` of Python values. Mappings are equal when they have as many keys and
every key of the one has an equal value in the other. -/
def equal : ExactTree → ExactTree → Bool
  | .null, .null => true
  | .bool first, .bool second => first = second
  | .number first, .number second => first = second
  | .str first, .str second => first = second
  | .array first, .array second => equalAll first second
  | .object first, .object second => first.length = second.length && equalMembers first second
  | _, _ => false

def equalAll : List ExactTree → List ExactTree → Bool
  | [], [] => true
  | value :: first, other :: second => equal value other && equalAll first second
  | _, _ => false

def equalMembers : List (Text × ExactTree) → List (Text × ExactTree) → Bool
  | [], _ => true
  | (key, value) :: first, second =>
    (match second.find? fun member => member.1 = key with
      | some other => equal value other.2
      | none => false) && equalMembers first second

end

mutual

/-- The tree with the members of every object in the order of their keys. -/
def canonical : ExactTree → ExactTree
  | .array values => .array (canonicalAll values)
  | .object members => .object (arranged (canonicalMembers members))
  | .null => .null
  | .bool value => .bool value
  | .number value => .number value
  | .str value => .str value

def canonicalAll : List ExactTree → List ExactTree
  | [] => []
  | value :: rest => canonical value :: canonicalAll rest

def canonicalMembers : List (Text × ExactTree) → List (Text × ExactTree)
  | [] => []
  | (key, value) :: rest => (key, canonical value) :: canonicalMembers rest

end

/-- Induction over trees: a container has the property when all that it contains has it. -/
@[elab_as_elim] theorem induct {P : ExactTree → Prop} (null : P .null) (bool : ∀ value, P (.bool value))
    (number : ∀ value, P (.number value)) (str : ∀ value, P (.str value))
    (array : ∀ values, (∀ value ∈ values, P value) → P (.array values))
    (object : ∀ members, (∀ member ∈ members, P member.2) → P (.object members)) (tree : ExactTree) : P tree := by
  refine @ExactTree.rec P (fun values => ∀ value ∈ values, P value) (fun members => ∀ member ∈ members, P member.2)
    (fun member => P member.2) null bool number str array object ?_ ?_ ?_ ?_ ?_ tree
  · intro value member
    cases member
  · intro head tail found rest value member
    rcases List.mem_cons.mp member with rfl | later
    · exact found
    · exact rest value later
  · intro value member
    cases member
  · intro head tail found rest value member
    rcases List.mem_cons.mp member with rfl | later
    · exact found
    · exact rest value later
  · intro key value found
    exact found

section
variable {values : List ExactTree} {members : List (Text × ExactTree)}

theorem itemsAll_eq : itemsAll values = (values.map items).sum := by
  induction values with
  | nil => rfl
  | cons value rest ih => simp [itemsAll, ih]

theorem itemsMembers_eq : itemsMembers members = (members.map fun member => member.2.items).sum := by
  induction members with
  | nil => rfl
  | cons member rest ih => simp [itemsMembers, ih]

theorem depthAll_le {bound : Nat} : depthAll values ≤ bound ↔ ∀ value ∈ values, value.depth + 1 ≤ bound := by
  induction values with
  | nil => simp [depthAll]
  | cons value rest ih => simp [depthAll, ih]

theorem depthMembers_le {bound : Nat} :
    depthMembers members ≤ bound ↔ ∀ member ∈ members, member.2.depth + 1 ≤ bound := by
  induction members with
  | nil => simp [depthMembers]
  | cons member rest ih =>
    obtain ⟨key, value⟩ := member
    rw [List.forall_mem_cons, ← ih, depthMembers, Nat.max_le]

theorem stringsAll_iff {test : Text → Prop} : StringsAll test values ↔ ∀ value ∈ values, value.Strings test := by
  induction values with
  | nil => simp [StringsAll]
  | cons value rest ih => simp [StringsAll, ih]

theorem stringsMembers_iff {test : Text → Prop} :
    StringsMembers test members ↔ ∀ member ∈ members, test member.1 ∧ member.2.Strings test := by
  induction members with
  | nil => simp [StringsMembers]
  | cons member rest ih => simp only [StringsMembers, List.forall_mem_cons, ih, and_assoc]

theorem Strings.imp {test other : Text → Prop} {tree : ExactTree} (passed : tree.Strings test)
    (weaker : ∀ text, test text → other text) : tree.Strings other := by
  induction tree using ExactTree.induct with
  | null => trivial
  | bool value => trivial
  | number value => trivial
  | str value => exact weaker value passed
  | array values ih =>
    rw [Strings, stringsAll_iff] at passed ⊢
    exact fun value member => ih value member (passed value member)
  | object members ih =>
    rw [Strings, stringsMembers_iff] at passed ⊢
    exact fun member found => ⟨weaker _ (passed member found).1, ih member found (passed member found).2⟩

theorem Strings.and {test other : Text → Prop} {tree : ExactTree} (passed : tree.Strings test)
    (both : tree.Strings other) : tree.Strings fun text => test text ∧ other text := by
  induction tree using ExactTree.induct with
  | null => trivial
  | bool value => trivial
  | number value => trivial
  | str value => exact ⟨passed, both⟩
  | array values ih =>
    rw [Strings, stringsAll_iff] at passed both ⊢
    exact fun value member => ih value member (passed value member) (both value member)
  | object members ih =>
    rw [Strings, stringsMembers_iff] at passed both ⊢
    exact fun member found => ⟨⟨(passed member found).1, (both member found).1⟩,
      ih member found (passed member found).2 (both member found).2⟩

theorem properAll_iff : ProperAll values ↔ ∀ value ∈ values, value.Proper := by
  induction values with
  | nil => simp [ProperAll]
  | cons value rest ih => simp [ProperAll, ih]

theorem properMembers_iff : ProperMembers members ↔ ∀ member ∈ members, member.2.Proper := by
  induction members with
  | nil => simp [ProperMembers]
  | cons member rest ih => simp only [ProperMembers, List.forall_mem_cons, ih]

theorem denoteAll_eq : denoteAll values = values.map denote := by
  induction values with
  | nil => rfl
  | cons value rest ih => simp [denoteAll, ih]

theorem canonicalAll_eq : canonicalAll values = values.map canonical := by
  induction values with
  | nil => rfl
  | cons value rest ih => simp [canonicalAll, ih]

theorem canonicalMembers_eq : canonicalMembers members = members.map fun member => (member.1, member.2.canonical) := by
  induction members with
  | nil => rfl
  | cons member rest ih => simp [canonicalMembers, ih]

end

end ExactTree

/-- `ExactValue`: a mapping has no key twice. -/
structure ExactValue where
  tree : ExactTree
  proper : tree.Proper

end Pytitect.Wire
