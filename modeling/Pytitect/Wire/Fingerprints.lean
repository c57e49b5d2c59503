import Pytitect.Wire.Numbers

namespace Pytitect
open JsonText Text Wire

/-- `canonical_json_bytes`: stable JSON for fingerprints. -/
def canonicalJsonBytes (interpreter : Interpreter) (value : JsonValue) : Except PyError (List UInt8) := do
  validateJson value .default
  let text ← value.dumps interpreter true
  match Text.encode text with
  | some bytes => .ok bytes
  | none => .error .unicodeError

/-- Limits with room for so many bytes. -/
def Limits.roomFor (limits : Limits) (size : Nat) : Limits :=
  ⟨max limits.maxBodyBytes size, limits.maxJsonDepth, limits.maxJsonItems, limits.maxMetadataItems, limits.maxStringLength, by
    have positive := limits.positive
    omega⟩

namespace JsonValue
variable {interpreter : Interpreter} {limits : Limits} {value : JsonValue} {bytes : List UInt8}

/-- A value without floats: all of its numbers are integers. -/
def Integral (value : JsonValue) : Prop := value.Numbers (fun _ => True) fun _ => False

theorem Integral.finite (integral : value.Integral) : value.Numbers (fun _ => True) fun bits => isFinite bits = true := by
  unfold Integral at integral
  induction value using induct with
  | null => trivial
  | bool value => trivial
  | int value => trivial
  | float bits => exact integral.elim
  | str value => trivial
  | list items ih =>
    rw [Numbers, numbersAll_iff] at integral ⊢
    exact fun item member => ih item member (integral item member)
  | dict members ih =>
    rw [Numbers, numbersMembers_iff] at integral ⊢
    exact fun member found => ih member found (integral member found)

/-- The two checks ask for the same. -/
theorem validateJson_within (integral : value.Integral) (plain : (value.exact interpreter).Strings Plain) :
    validateJson value limits = .ok () ↔ Within limits (value.exact interpreter) 0 0 := by
  rw [validateJson_iff interpreter]
  constructor
  · rintro ⟨items, admissible⟩
    exact ⟨by omega, admissible.depth, admissible.strings.and plain⟩
  · intro within
    have items := within.items
    exact ⟨by omega, within.depth, within.strings.imp fun _ admitted => admitted.1, integral.finite⟩

/-- What `canonical_json_bytes` answers: the bytes that a document with the value has. -/
theorem canonicalJsonBytes_ok : canonicalJsonBytes interpreter value = .ok bytes ↔
    validateJson value .default = .ok () ∧ value.Numbers (Writes interpreter) (fun _ => True) ∧
      Text.encode (rendered (value.exact interpreter)) = some bytes := by
  unfold canonicalJsonBytes
  rw [bind_ok_iff]
  constructor
  · rintro ⟨⟨⟩, valid, rest⟩
    obtain ⟨text, written, rest⟩ := bind_ok rest
    obtain ⟨short, rfl⟩ := dumps_iff.mp written
    split at rest
    · rename_i found encoded
      exact ⟨valid, short, encoded.trans (congrArg some (Except.ok.inj rest))⟩
    · cases rest
  · rintro ⟨valid, short, encoded⟩
    refine ⟨(), valid, bind_ok_iff.mpr ⟨_, dumps_iff.mpr ⟨short, rfl⟩, ?_⟩⟩
    have same : Text.encode (value.text interpreter true) = some bytes := encoded
    rw [same]

/-- The bytes are those of a text that stands for the value. -/
theorem canonicalJsonBytes_denotes (proper : value.Proper) (integral : value.Integral)
    (written : canonicalJsonBytes interpreter value = .ok bytes) :
    Denotes (rendered (value.exact interpreter)) (Limits.default.roomFor bytes.length)
      ⟨(value.exact interpreter).canonical, Limits.default.roomFor bytes.length⟩ := by
  obtain ⟨valid, -, encoded⟩ := canonicalJsonBytes_ok.mp written
  have plain := (Text.encode_iff.mp encoded).1
  have strings : (value.exact interpreter).Strings Plain := by
    rw [← ExactTree.strings_canonical, ← plain_written, ← rendered_eq]
    exact plain
  have within := (validateJson_within integral strings).mp valid
  exact denotes_rendered _ (exact_proper proper) within ⟨le_rfl, le_rfl, le_rfl⟩

/-- Values without floats that have one form when they are written are equal as JSON. -/
theorem same_of_exact {other : JsonValue} (integral : value.Integral) (integral' : other.Integral)
    (equal : (value.exact interpreter).canonical = (other.exact interpreter).canonical) : value.Same other := by
  rw [← exact_canonical, ← exact_canonical] at equal
  have read : ordinary false (value.canonical.exact interpreter) = .ok value.canonical :=
    ordinary_exact (numbers_canonical.mpr integral)
  rw [equal, ordinary_exact (numbers_canonical.mpr integral')] at read
  exact (Except.ok.inj read).symm

end JsonValue

/-- What is hashed for two values without floats is the same exactly when they are equal as JSON. -/
theorem fingerprint_preimages_canonical (interpreter : Interpreter) (first second : Json) (integral : first.value.Integral)
    (integral' : second.value.Integral) {bytes bytes' : List UInt8}
    (written : canonicalJsonBytes interpreter first.value = .ok bytes)
    (written' : canonicalJsonBytes interpreter second.value = .ok bytes') :
    bytes = bytes' ↔ first.value.Same second.value := by
  obtain ⟨valid, -, encoded⟩ := JsonValue.canonicalJsonBytes_ok.mp written
  obtain ⟨valid', -, encoded'⟩ := JsonValue.canonicalJsonBytes_ok.mp written'
  constructor
  · rintro rfl
    have run := Utf8Decoder.run_iff.mpr encoded
    rw [Utf8Decoder.run_iff.mpr encoded'] at run
    have texts : rendered (second.value.exact interpreter) = rendered (first.value.exact interpreter) :=
      (Prod.mk.inj (Option.some.inj run)).1
    obtain ⟨plain, isBytes⟩ := Text.encode_iff.mp encoded
    have one := JsonValue.canonicalJsonBytes_denotes first.proper integral written
    have two := JsonValue.canonicalJsonBytes_denotes second.proper integral' written'
    rw [texts] at two
    have short : (utf8 (rendered (first.value.exact interpreter))).length ≤ (Limits.default.roomFor bytes.length).maxBodyBytes :=
      isBytes ▸ le_max_right _ _
    exact JsonValue.same_of_exact integral integral' (congrArg WireDocument.value (denotes_unique plain short one two))
  · intro same
    have texts : rendered (first.value.exact interpreter) = rendered (second.value.exact interpreter) := by
      rw [rendered_eq, rendered_eq, same.exact]
    rw [texts] at encoded
    exact Option.some.inj (encoded.symm.trans encoded')

/-- An object with an integer, a truth value and a text, and one with the members in the other order. -/
def sampleJson : Json :=
  ⟨.dict [("n".codePoints, .list [.int 10, .bool true]), ("a".codePoints, .str [0xe9])], by decide, ⟨⟨trivial, trivial, trivial⟩, trivial, trivial⟩⟩

def turnedJson : Json :=
  ⟨.dict [("a".codePoints, .str [0xe9]), ("n".codePoints, .list [.int 10, .bool true])], by decide, ⟨trivial, ⟨trivial, trivial, trivial⟩, trivial⟩⟩

/-- An interpreter with the usual limit for integers. -/
def usualInterpreter : Interpreter := ⟨fun _ => JsonValue.intToken 0, 4300⟩

/-- The bytes of both. -/
def sampleBytes : List UInt8 := utf8 "\x7b\"a\":\"é\",\"n\":[10,true]\x7d".codePoints

theorem sampleJson_bytes : canonicalJsonBytes usualInterpreter sampleJson.value = .ok sampleBytes := by rfl

theorem turnedJson_bytes : canonicalJsonBytes usualInterpreter turnedJson.value = .ok sampleBytes := by rfl

theorem turned_preimage : sampleBytes = sampleBytes ↔ sampleJson.value.Same turnedJson.value :=
  fingerprint_preimages_canonical usualInterpreter sampleJson turnedJson ⟨⟨trivial, trivial, trivial⟩, trivial, trivial⟩
    ⟨trivial, ⟨trivial, trivial, trivial⟩, trivial⟩ sampleJson_bytes turnedJson_bytes

end Pytitect
