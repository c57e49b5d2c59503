import Pytitect.Core
import Pytitect.Lib.Unicode
import Mathlib.Algebra.Order.Ring.Nat

namespace Pytitect

/-- `Limits`: finite resource limits of a boundary. -/
structure Limits where
  maxBodyBytes : Nat
  maxJsonDepth : Nat
  maxJsonItems : Nat
  maxMetadataItems : Nat
  maxStringLength : Nat
  positive : 0 < maxBodyBytes ∧ 0 < maxJsonDepth ∧ 0 < maxJsonItems ∧ 0 < maxMetadataItems ∧ 0 < maxStringLength
  deriving DecidableEq

def Limits.default : Limits := ⟨1048576, 32, 10000, 64, 16384, by decide⟩

/-- `JsonValue`. A float is its binary64 bit pattern and an object lists its
members in order; a Python `dict` has no key twice. -/
inductive JsonValue
  | null
  | bool (value : Bool)
  | int (value : Int)
  | float (bits : UInt64)
  | str (value : Text)
  | list (items : List JsonValue)
  | dict (members : List (Text × JsonValue))

namespace JsonValue

/-- `math.isfinite`: the exponent bits are not all set. -/
def isFinite (bits : UInt64) : Bool := bits.toNat / 2 ^ 52 % 2 ^ 11 ≠ 2047

/-- Every value is charged against the depth and the item count first. -/
def charge (limits : Limits) (depth count : Nat) : Except PyError Nat :=
  if limits.maxJsonDepth < depth then .error (.valueError "JSON nesting exceeds max_json_depth")
  else if limits.maxJsonItems < count + 1 then .error (.valueError "JSON item count exceeds max_json_items")
  else .ok (count + 1)

mutual

/-- The nested `visit` of `validate_json`. It answers the item count so far. -/
def visit (limits : Limits) : JsonValue → Nat → Nat → Except PyError Nat
  | .null, depth, count => charge limits depth count
  | .bool _, depth, count => charge limits depth count
  | .int _, depth, count => charge limits depth count
  | .float bits, depth, count => do
    let count ← charge limits depth count
    if isFinite bits then .ok count else .error (.valueError "JSON numbers must be finite")
  | .str value, depth, count => do
    let count ← charge limits depth count
    if limits.maxStringLength < value.length then .error (.valueError "JSON string exceeds max_string_length")
    else .ok count
  | .list items, depth, count => do
    let count ← charge limits depth count
    visitItems limits items (depth + 1) count
  | .dict members, depth, count => do
    let count ← charge limits depth count
    visitMembers limits members (depth + 1) count

def visitItems (limits : Limits) : List JsonValue → Nat → Nat → Except PyError Nat
  | [], _, count => .ok count
  | item :: rest, depth, count => do
    let count ← visit limits item depth count
    visitItems limits rest depth count

def visitMembers (limits : Limits) : List (Text × JsonValue) → Nat → Nat → Except PyError Nat
  | [], _, count => .ok count
  | (key, item) :: rest, depth, count =>
    if limits.maxStringLength < key.length then .error (.valueError "JSON key exceeds max_string_length")
    else do
      let count ← visit limits item depth count
      visitMembers limits rest depth count

end

end JsonValue

/-- `validate_json`: shape, finite numbers, strings, depth and item count. -/
def validateJson (value : JsonValue) (limits : Limits) : Except PyError Unit :=
  (value.visit limits 0 0).map fun _ => ()

theorem null_valid : validateJson .null .default = .ok () := rfl

theorem zero_valid : validateJson (.int 0) .default = .ok () := rfl

end Pytitect
