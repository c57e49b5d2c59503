import Pytitect.Wire.Extent

namespace Pytitect.Wire
open JsonText

/-- How the stream of characters ends: by itself, or with an exception when the next one is asked for. -/
inductive Ending
  | finished
  | failed (error : WireError)
  deriving DecidableEq

/-- `_decode`: the characters of the chunks, and how they end. A chunk is decoded whole
before its first character is seen. -/
def decodeChunks (maximum : Nat) (decoder : Utf8Decoder) (size : Nat) : List (List UInt8) → Text × Ending
  | [] => ([], if decoder = .idle then .finished else .failed .unicode)
  | chunk :: rest =>
    if maximum < size + chunk.length then ([], .failed .limits)
    else
      match decoder.run chunk with
      | none => ([], .failed .unicode)
      | some (text, next) =>
        let later := decodeChunks maximum next (size + chunk.length) rest
        (text ++ later.1, later.2)

/-- Where `_Parser` stands: the characters from the lookahead on, and the count of values. -/
structure Reading where
  rest : Text
  count : Nat

section
variable (ending : Ending)

/-- `take`; at the end of the stream there is no character. -/
def take : Text → Except WireError (Option CodePoint × Text)
  | c :: rest => .ok (some c, rest)
  | [] =>
    match ending with
    | .finished => .ok (none, [])
    | .failed error => .error error

def peek (rest : Text) : Except WireError (Option CodePoint) := do
  let (next, _) ← take ending rest
  return next

def whitespace : Text → Except WireError Text
  | c :: rest => if isBlank c then whitespace rest else .ok (c :: rest)
  | [] => do
    let _ ← peek ending []
    return []

def require (expected : CodePoint) (rest : Text) : Except WireError Text := do
  let (next, rest) ← take ending rest
  if next = some expected then .ok rest else .error .malformed

/-- `hex_quad` -/
def readHexQuad (rest : Text) : Except WireError (Nat × Text) := do
  let (first, rest) ← take ending rest
  let (second, rest) ← take ending rest
  let (third, rest) ← take ending rest
  let (fourth, rest) ← take ending rest
  match first, second, third, fourth with
  | some first, some second, some third, some fourth =>
    match hexQuad first second third fourth with
    | some code => .ok (code, rest)
    | none => .error .malformed
  | _, _, _, _ => .error .malformed

/-- What follows a backslash. -/
def readEscape (rest : Text) : Except WireError (CodePoint × Text) := do
  let (letter, rest) ← take ending rest
  if letter = some 0x75 then
    let (code, rest) ← readHexQuad ending rest
    if 0xd800 ≤ code ∧ code ≤ 0xdbff then
      let rest ← require ending backslash rest
      let rest ← require ending 0x75 rest
      let (low, rest) ← readHexQuad ending rest
      if 0xdc00 ≤ low ∧ low ≤ 0xdfff then
        .ok (Fin.ofNat 0x110000 (0x10000 + (code - 0xd800) * 0x400 + low - 0xdc00), rest)
      else .error .malformed
    else if 0xdc00 ≤ code ∧ code ≤ 0xdfff then .error .malformed
    else .ok (Fin.ofNat 0x110000 code, rest)
  else
    match letter.bind escapes.get? with
    | some c => .ok (c, rest)
    | none => .error .malformed

/-- One character of a string; none when the string ends. -/
def readCharacter (rest : Text) : Except WireError (Option CodePoint × Text) := do
  let (next, rest) ← take ending rest
  match next with
  | none => .error .malformed
  | some c =>
    if c = quote then .ok (none, rest)
    else if c.val < 0x20 then .error .malformed
    else if c = backslash then do
      let (c, rest) ← readEscape ending rest
      .ok (some c, rest)
    else .ok (some c, rest)

/-- The loop of `string`. -/
def stringLoop (limits : Limits) : Nat → Text → Text → Except WireError (Text × Text)
  | 0, _, _ => .error .diverged
  | fuel + 1, characters, rest => do
    let (character, rest) ← readCharacter ending rest
    match character with
    | none => .ok (characters, rest)
    | some c =>
      if limits.maxStringLength ≤ characters.length then .error .limits
      else stringLoop limits fuel (characters ++ [c]) rest

/-- `string` -/
def readString (limits : Limits) (rest : Text) : Except WireError (Text × Text) := do
  let rest ← require ending quote rest
  stringLoop ending limits (rest.length + 1) [] rest

/-- The loop over the entries of an object or an array. -/
def entriesLoop {σ : Type} (close : CodePoint) (add : σ → Reading → Except WireError (σ × Reading)) :
    Nat → σ → Reading → Except WireError (σ × Reading)
  | 0, _, _ => .error .diverged
  | fuel + 1, found, reading => do
    let (found, reading) ← add found reading
    let rest ← whitespace ending reading.rest
    let next ← peek ending rest
    if next = some close then .ok (found, ⟨rest, reading.count⟩)
    else
      let rest ← require ending comma rest
      let rest ← whitespace ending rest
      entriesLoop close add fuel found ⟨rest, reading.count⟩

/-- An object or an array, from its opening bracket to its closing one. -/
def enclosed {σ : Type} (close : CodePoint) (add : σ → Reading → Except WireError (σ × Reading)) (empty : σ)
    (reading : Reading) : Except WireError (σ × Reading) := do
  let (_, rest) ← take ending reading.rest
  let rest ← whitespace ending rest
  let next ← peek ending rest
  let (found, reading) ← (if next = some close then .ok (empty, ⟨rest, reading.count⟩)
    else entriesLoop ending close add (rest.length + 1) empty ⟨rest, reading.count⟩)
  let rest ← require ending close reading.rest
  return (found, ⟨rest, reading.count⟩)

/-- A key and its value: every value is charged before it replaces that of an equal key. -/
def addMember (limits : Limits) (value : Reading → Except WireError (ExactTree × Reading)) (mapping : Dict Text ExactTree)
    (reading : Reading) : Except WireError (Dict Text ExactTree × Reading) := do
  let (key, rest) ← readString ending limits reading.rest
  let rest ← whitespace ending rest
  let rest ← require ending colon rest
  let (child, reading) ← value ⟨rest, reading.count⟩
  return (mapping.set key child, reading)

def addElement (value : Reading → Except WireError (ExactTree × Reading)) (sequence : List ExactTree) (reading : Reading) :
    Except WireError (List ExactTree × Reading) := do
  let (child, reading) ← value reading
  return (sequence ++ [child], reading)

def requireAll : Text → Text → Except WireError Text
  | [], rest => .ok rest
  | expected :: more, rest => do
    let rest ← require ending expected rest
    requireAll more rest

/-- The loop over a number's characters ends at the first that no number has. -/
def readNumber : Text → Except WireError (Text × Text)
  | c :: rest =>
    if isNumberSign c then do
      let (token, rest) ← readNumber rest
      return (c :: token, rest)
    else .ok ([], c :: rest)
  | [] => do
    let _ ← peek ending []
    return ([], [])

/-- What `value` does once it has seen the first character; `value` reads the values inside. -/
def readFirst (limits : Limits) (value : Reading → Except WireError (ExactTree × Reading)) (c : CodePoint) (rest : Text)
    (count : Nat) : Except WireError (ExactTree × Reading) :=
  if c = quote then do
    let (text, rest) ← readString ending limits rest
    return (.str text, ⟨rest, count⟩)
  else if c = openObject then do
    let (mapping, reading) ← enclosed ending closeObject (addMember ending limits value) .empty ⟨rest, count⟩
    return (.object mapping.items, reading)
  else if c = openArray then do
    let (sequence, reading) ← enclosed ending closeArray (addElement value) [] ⟨rest, count⟩
    return (.array sequence, reading)
  else if c = 0x6e then do
    let rest ← requireAll ending nullWord rest
    return (.null, ⟨rest, count⟩)
  else if c = 0x74 then do
    let rest ← requireAll ending trueWord rest
    return (.bool true, ⟨rest, count⟩)
  else if c = 0x66 then do
    let rest ← requireAll ending falseWord rest
    return (.bool false, ⟨rest, count⟩)
  else if c = 0x2d ∨ isDigit c then do
    let (token, rest) ← readNumber ending rest
    let number ← ExactNumber.ofToken token
    return (.number number, ⟨rest, count⟩)
  else .error .malformed

/-- `value` -/
def readValue (limits : Limits) : Nat → Nat → Reading → Except WireError (ExactTree × Reading)
  | 0, _, _ => .error .diverged
  | fuel + 1, depth, reading => do
    let count ← charge limits depth reading.count
    let rest ← whitespace ending reading.rest
    let first ← peek ending rest
    match first with
    | none => .error .malformed
    | some c => readFirst ending limits (readValue limits fuel (depth + 1)) c rest count

end

/-- The body of `decode_wire_stream`. No value is nested deeper than the depth limit allows. -/
def parseStream (limits : Limits) (text : Text) (ending : Ending) : Except WireError WireDocument := do
  let (value, reading) ← readValue ending limits (limits.maxJsonDepth + 2) 0 ⟨text, 0⟩
  let rest ← whitespace ending reading.rest
  let next ← peek ending rest
  if next.isSome then .error .malformed else WireDocument.make value limits

/-- `decode_wire_stream` -/
def decodeWireStream (chunks : List (List UInt8)) (limits : Limits) : Except WireError WireDocument :=
  let stream := decodeChunks limits.maxBodyBytes .idle 0 chunks
  match parseStream limits stream.1 stream.2 with
  | .error .unicode => .error .malformed
  | result => result

/-- `decode_wire` -/
def decodeWire (payload : List UInt8) (limits : Limits) : Except WireError WireDocument := decodeWireStream [payload] limits

end Pytitect.Wire
