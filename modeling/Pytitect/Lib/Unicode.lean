import Mathlib.Algebra.Order.Ring.Nat
import Mathlib.Data.List.Basic
import Mathlib.Tactic.Common

/-- A code point; surrogates are code points too. -/
abbrev CodePoint : Type := Fin 0x110000

/-- A string as a sequence of code points, which need not be encodable. -/
abbrev Text : Type := List CodePoint

instance CodePoint.instNeZero : NeZero 0x110000 := ⟨by decide⟩

instance CodePoint.instLawfulBEq : LawfulBEq CodePoint := inferInstance

instance Text.instLawfulBEq : LawfulBEq Text := inferInstance

def CodePoint.ofChar (c : Char) : CodePoint := Fin.ofNat 0x110000 c.toNat

/-- The code points of a literal. -/
def String.codePoints (s : String) : Text := s.toList.map CodePoint.ofChar

theorem CodePoint.ofChar_injective : Function.Injective CodePoint.ofChar := by
  intro first second same
  have values := congrArg Fin.val same
  have below : ∀ c : Char, c.toNat < 0x110000 := fun c => by
    have valid := c.valid
    unfold UInt32.isValidChar Nat.isValidChar at valid
    change c.val.toNat < _
    omega
  simp only [CodePoint.ofChar, Fin.ofNat, Nat.mod_eq_of_lt (below first), Nat.mod_eq_of_lt (below second)] at values
  exact Char.ext (UInt32.toNat_inj.mp values)

theorem String.codePoints_injective : Function.Injective String.codePoints := by
  intro first second same
  exact String.ext (List.map_injective_iff.mpr CodePoint.ofChar_injective same)

def CodePoint.isSurrogate (c : CodePoint) : Bool := 0xd800 ≤ c.val && c.val ≤ 0xdfff

/-- How many bytes the UTF-8 form of a code point takes. -/
def CodePoint.width (c : CodePoint) : Nat :=
  if c.val < 0x80 then 1 else if c.val < 0x800 then 2 else if c.val < 0x10000 then 3 else 4

/-- The UTF-8 form of a code point. -/
def CodePoint.utf8 (c : CodePoint) : List UInt8 :=
  let n := c.val
  if n < 0x80 then [.ofNat n]
  else if n < 0x800 then [.ofNat (0xc0 + n / 0x40), .ofNat (0x80 + n % 0x40)]
  else if n < 0x10000 then
    [.ofNat (0xe0 + n / 0x1000), .ofNat (0x80 + n / 0x40 % 0x40), .ofNat (0x80 + n % 0x40)]
  else
    [.ofNat (0xf0 + n / 0x40000), .ofNat (0x80 + n / 0x1000 % 0x40), .ofNat (0x80 + n / 0x40 % 0x40),
      .ofNat (0x80 + n % 0x40)]

/-- What `str.strip` removes: the code points Python counts as white space. -/
def CodePoint.isSpace (c : CodePoint) : Bool :=
  let n := c.val
  (0x09 ≤ n && n ≤ 0x0d) || (0x1c ≤ n && n ≤ 0x20) || n == 0x85 || n == 0xa0 || n == 0x1680 ||
    (0x2000 ≤ n && n ≤ 0x200a) || n == 0x2028 || n == 0x2029 || n == 0x202f || n == 0x205f || n == 0x3000

namespace Text

/-- `value == value.strip()`: no white space at either end. -/
def trimmed (s : Text) : Bool :=
  match s.head?, s.getLast? with
  | some first, some last => !first.isSpace && !last.isSpace
  | _, _ => true

/-- The UTF-8 form of a text without surrogates. -/
def utf8 (s : Text) : List UInt8 := s.flatMap CodePoint.utf8

/-- Strict encoding: a surrogate has no UTF-8 form. -/
def encode (s : Text) : Option (List UInt8) := if s.any CodePoint.isSurrogate then none else some (utf8 s)

theorem encode_iff {s : Text} {bytes : List UInt8} :
    s.encode = some bytes ↔ s.any CodePoint.isSurrogate = false ∧ bytes = utf8 s := by
  unfold encode
  cases s.any CodePoint.isSurrogate with
  | true => simp
  | false => simp [eq_comm]

theorem length_utf8_append (s t : Text) : (utf8 (s ++ t)).length = (utf8 s).length + (utf8 t).length := by
  rw [utf8, List.flatMap_append, List.length_append]
  rfl

theorem length_utf8_cons (c : CodePoint) (s : Text) : (utf8 (c :: s)).length = c.utf8.length + (utf8 s).length := by
  rw [utf8, List.flatMap_cons, List.length_append]
  rfl

theorem length_utf8_pos (c : CodePoint) : 0 < c.utf8.length := by
  unfold CodePoint.utf8
  dsimp only
  split
  · exact Nat.succ_pos _
  split
  · exact Nat.succ_pos _
  split
  · exact Nat.succ_pos _
  · exact Nat.succ_pos _

/-- A character takes at least one byte. -/
theorem length_le_utf8 (s : Text) : s.length ≤ (utf8 s).length := by
  induction s with
  | nil => exact Nat.zero_le _
  | cons c s ih =>
    have positive := length_utf8_pos c
    rw [length_utf8_cons, List.length_cons]
    omega

end Text

/-- Where an incremental UTF-8 decoder stands: how many bytes of the current
character are still to come, between which bounds the next one must lie, and
the value of the bytes so far. -/
structure Utf8Decoder where
  needed : Nat
  low : Nat
  high : Nat
  value : Nat
  deriving DecidableEq

namespace Utf8Decoder

/-- Between two characters. -/
def idle : Utf8Decoder := ⟨0, 0x80, 0xbf, 0⟩

/-- The first byte of a character. The bounds on the second rule out overlong
forms, surrogates and values beyond the last code point. -/
def lead (byte : Nat) : Option (Utf8Decoder × Option CodePoint) :=
  if byte < 0x80 then some (idle, some (Fin.ofNat 0x110000 byte))
  else if byte < 0xc2 then none
  else if byte < 0xe0 then some (⟨1, 0x80, 0xbf, byte - 0xc0⟩, none)
  else if byte = 0xe0 then some (⟨2, 0xa0, 0xbf, 0⟩, none)
  else if byte = 0xed then some (⟨2, 0x80, 0x9f, 0xd⟩, none)
  else if byte < 0xf0 then some (⟨2, 0x80, 0xbf, byte - 0xe0⟩, none)
  else if byte = 0xf0 then some (⟨3, 0x90, 0xbf, 0⟩, none)
  else if byte < 0xf4 then some (⟨3, 0x80, 0xbf, byte - 0xf0⟩, none)
  else if byte = 0xf4 then some (⟨3, 0x80, 0x8f, 4⟩, none)
  else none

/-- One more byte; `none` is a decoding error. -/
def step (d : Utf8Decoder) (byte : UInt8) : Option (Utf8Decoder × Option CodePoint) :=
  if d.needed = 0 then lead byte.toNat
  else if d.low ≤ byte.toNat ∧ byte.toNat ≤ d.high then
    let value := d.value * 0x40 + (byte.toNat - 0x80)
    if d.needed = 1 then some (idle, some (Fin.ofNat 0x110000 value))
    else some (⟨d.needed - 1, 0x80, 0xbf, value⟩, none)
  else none

/-- All characters that a run of bytes completes, and where the decoder stands then. -/
def run (d : Utf8Decoder) : List UInt8 → Option (Text × Utf8Decoder)
  | [] => some ([], d)
  | byte :: rest =>
    match d.step byte with
    | none => none
    | some (next, completed) => (next.run rest).map fun decoded => (completed.toList ++ decoded.1, decoded.2)

theorem byte_toNat {n : Nat} (small : n < 0x100) : (UInt8.ofNat n).toNat = n := by
  simp [UInt8.toNat_ofNat', Nat.mod_eq_of_lt small]

theorem run_cons {d next : Utf8Decoder} {byte : UInt8} {rest : List UInt8} {completed : Option CodePoint}
    (stepped : d.step byte = some (next, completed)) :
    d.run (byte :: rest) = (next.run rest).map fun decoded => (completed.toList ++ decoded.1, decoded.2) := by
  simp only [run, stepped]

/-- Bytes may arrive in portions. -/
theorem run_append (d : Utf8Decoder) (first second : List UInt8) : d.run (first ++ second) =
    (d.run first).bind fun decoded => (decoded.2.run second).map fun later => (decoded.1 ++ later.1, later.2) := by
  induction first generalizing d with
  | nil =>
    rw [List.nil_append, run, Option.bind_some]
    exact Option.map_id'.symm
  | cons byte rest ih =>
    rw [List.cons_append]
    cases stepped : d.step byte with
    | none => simp only [run, stepped, Option.bind_none]
    | some moved =>
      rw [run_cons stepped, run_cons stepped, ih]
      cases moved.1.run rest with
      | none => rfl
      | some decoded =>
        rw [Option.bind_some, Option.map_some, Option.bind_some, Option.map_map]
        simp only [Function.comp_def, List.append_assoc]

/-- A byte that continues a character and does not end it. -/
theorem step_tail {needed low high value bits : Nat} (within : low ≤ 0x80 + bits ∧ 0x80 + bits ≤ high)
    (small : bits < 0x40) :
    step ⟨needed + 2, low, high, value⟩ (.ofNat (0x80 + bits)) =
      some (⟨needed + 1, 0x80, 0xbf, value * 0x40 + bits⟩, none) := by
  have byte : (UInt8.ofNat (0x80 + bits)).toNat = 0x80 + bits := byte_toNat (by omega)
  simp only [step, byte]
  rw [if_neg (by omega), if_pos within, if_neg (by omega)]
  simp

/-- The last byte of a character. -/
theorem step_last {low high value bits : Nat} (within : low ≤ 0x80 + bits ∧ 0x80 + bits ≤ high) (small : bits < 0x40) :
    step ⟨1, low, high, value⟩ (.ofNat (0x80 + bits)) =
      some (idle, some (Fin.ofNat 0x110000 (value * 0x40 + bits))) := by
  have byte : (UInt8.ofNat (0x80 + bits)).toNat = 0x80 + bits := byte_toNat (by omega)
  simp only [step, byte]
  rw [if_neg (by omega), if_pos within]
  simp

theorem ofNat_val {c : CodePoint} {n : Nat} (same : n = c.val) : Fin.ofNat 0x110000 n = c := by
  subst same
  simp

theorem lead_two {top : Nat} (bounds : 2 ≤ top ∧ top < 0x20) :
    step idle (.ofNat (0xc0 + top)) = some (⟨1, 0x80, 0xbf, top⟩, none) := by
  have byte : (UInt8.ofNat (0xc0 + top)).toNat = 0xc0 + top := byte_toNat (by omega)
  simp only [step, idle, byte, lead, if_true]
  rw [if_neg (by omega), if_neg (by omega), if_pos (by omega)]
  simp

/-- The bounds on the second byte of a three-byte character. -/
def secondOfThree (top : Nat) : Nat × Nat := if top = 0 then (0xa0, 0xbf) else if top = 0xd then (0x80, 0x9f) else (0x80, 0xbf)

def secondOfFour (top : Nat) : Nat × Nat := if top = 0 then (0x90, 0xbf) else if top = 4 then (0x80, 0x8f) else (0x80, 0xbf)

theorem lead_three {top : Nat} (bound : top < 0x10) :
    step idle (.ofNat (0xe0 + top)) = some (⟨2, (secondOfThree top).1, (secondOfThree top).2, top⟩, none) := by
  have all : ∀ top < 0x10,
      step idle (.ofNat (0xe0 + top)) = some (⟨2, (secondOfThree top).1, (secondOfThree top).2, top⟩, none) := by
    decide
  exact all top bound

theorem lead_four {top : Nat} (bound : top < 5) :
    step idle (.ofNat (0xf0 + top)) = some (⟨3, (secondOfFour top).1, (secondOfFour top).2, top⟩, none) := by
  have all : ∀ top < 5,
      step idle (.ofNat (0xf0 + top)) = some (⟨3, (secondOfFour top).1, (secondOfFour top).2, top⟩, none) := by
    decide
  exact all top bound

theorem run_utf8 {c : CodePoint} (scalar : c.isSurrogate = false) (rest : List UInt8) :
    idle.run (c.utf8 ++ rest) = (idle.run rest).map fun decoded => (c :: decoded.1, decoded.2) := by
  have bound := c.isLt
  have notSurrogate : c.val < 0xd800 ∨ 0xdfff < c.val := by
    simp only [CodePoint.isSurrogate, Bool.and_eq_false_iff, decide_eq_false_iff_not] at scalar
    omega
  unfold CodePoint.utf8
  dsimp only
  split
  · rename_i one
    have byte : (UInt8.ofNat c.val).toNat = c.val := byte_toNat (by omega)
    simp [run, step, idle, lead, byte, one]
  split
  · rename_i two
    have whole : c.val / 0x40 * 0x40 + c.val % 0x40 = c.val := by omega
    simp only [List.cons_append, List.nil_append]
    rw [run_cons (lead_two (by omega)), run_cons (step_last (by omega) (by omega)), ofNat_val whole]
    simp [Function.comp_def]
  split
  · rename_i three
    have second : (secondOfThree (c.val / 0x1000)).1 ≤ 0x80 + c.val / 0x40 % 0x40 ∧
        0x80 + c.val / 0x40 % 0x40 ≤ (secondOfThree (c.val / 0x1000)).2 := by
      unfold secondOfThree
      split
      · dsimp only
        omega
      split <;> (dsimp only; omega)
    have whole : (c.val / 0x1000 * 0x40 + c.val / 0x40 % 0x40) * 0x40 + c.val % 0x40 = c.val := by omega
    simp only [List.cons_append, List.nil_append]
    rw [run_cons (lead_three (by omega)), run_cons (step_tail second (by omega)),
      run_cons (step_last (by omega) (by omega)), ofNat_val whole]
    simp [Function.comp_def]
  · rename_i four
    have second : (secondOfFour (c.val / 0x40000)).1 ≤ 0x80 + c.val / 0x1000 % 0x40 ∧
        0x80 + c.val / 0x1000 % 0x40 ≤ (secondOfFour (c.val / 0x40000)).2 := by
      unfold secondOfFour
      split
      · dsimp only
        omega
      split <;> (dsimp only; omega)
    have whole : ((c.val / 0x40000 * 0x40 + c.val / 0x1000 % 0x40) * 0x40 + c.val / 0x40 % 0x40) * 0x40 + c.val % 0x40 =
        c.val := by omega
    simp only [List.cons_append, List.nil_append]
    rw [run_cons (lead_four (by omega)), run_cons (step_tail second (by omega)),
      run_cons (step_tail (by omega) (by omega)), run_cons (step_last (by omega) (by omega)), ofNat_val whole]
    simp [Function.comp_def]

/-- In the middle of a character at least one more byte must come, within its bounds. -/
theorem run_middle {needed low high value : Nat} {bytes : List UInt8} {text : Text} (bounds : 0x80 ≤ low ∧ high ≤ 0xbf)
    (ran : run ⟨needed + 1, low, high, value⟩ bytes = some (text, idle)) :
    ∃ bits rest, bytes = .ofNat (0x80 + bits) :: rest ∧ low ≤ 0x80 + bits ∧ 0x80 + bits ≤ high ∧
      (needed = 0 → ∃ tail, text = Fin.ofNat 0x110000 (value * 0x40 + bits) :: tail ∧ idle.run rest = some (tail, idle)) ∧
      (needed ≠ 0 → run ⟨needed, 0x80, 0xbf, value * 0x40 + bits⟩ rest = some (text, idle)) := by
  cases bytes with
  | nil => simp [run, idle] at ran
  | cons byte rest =>
    have small := byte.toNat_lt
    by_cases within : low ≤ byte.toNat ∧ byte.toNat ≤ high
    · refine ⟨byte.toNat - 0x80, rest, ?_, by omega, by omega, fun last => ?_, fun more => ?_⟩
      · have same : 0x80 + (byte.toNat - 0x80) = byte.toNat := by omega
        rw [same, UInt8.ofNat_toNat]
      · subst last
        have stepped : step ⟨1, low, high, value⟩ byte =
            some (idle, some (Fin.ofNat 0x110000 (value * 0x40 + (byte.toNat - 0x80)))) := by
          simp only [step]
          rw [if_neg (by omega), if_pos within, if_pos trivial]
        rw [run_cons stepped] at ran
        obtain ⟨⟨tail, last⟩, rested, same⟩ := Option.map_eq_some_iff.mp ran
        cases same
        exact ⟨tail, rfl, rested⟩
      · have stepped : step ⟨needed + 1, low, high, value⟩ byte =
            some (⟨needed, 0x80, 0xbf, value * 0x40 + (byte.toNat - 0x80)⟩, none) := by
          simp only [step]
          rw [if_neg (by omega), if_pos within, if_neg (by omega)]
          rfl
        rw [run_cons stepped] at ran
        obtain ⟨⟨tail, last⟩, rested, same⟩ := Option.map_eq_some_iff.mp ran
        cases same
        exact rested
    · simp [run, step, within] at ran

theorem secondOfThree_bounds {top : Nat} (bound : top < 0x10) :
    0x80 ≤ (secondOfThree top).1 ∧ (secondOfThree top).2 ≤ 0xbf ∧ (top = 0 → (secondOfThree top).1 = 0xa0) ∧
      (top = 0xd → (secondOfThree top).2 = 0x9f) := by
  have all : ∀ top < 0x10, 0x80 ≤ (secondOfThree top).1 ∧ (secondOfThree top).2 ≤ 0xbf ∧
      (top = 0 → (secondOfThree top).1 = 0xa0) ∧ (top = 0xd → (secondOfThree top).2 = 0x9f) := by decide
  exact all top bound

theorem secondOfFour_bounds {top : Nat} (bound : top < 5) :
    0x80 ≤ (secondOfFour top).1 ∧ (secondOfFour top).2 ≤ 0xbf ∧ (top = 0 → (secondOfFour top).1 = 0x90) ∧
      (top = 4 → (secondOfFour top).2 = 0x8f) := by
  have all : ∀ top < 5, 0x80 ≤ (secondOfFour top).1 ∧ (secondOfFour top).2 ≤ 0xbf ∧
      (top = 0 → (secondOfFour top).1 = 0x90) ∧ (top = 4 → (secondOfFour top).2 = 0x8f) := by decide
  exact all top bound

theorem ofNat_toNat_add {byte : UInt8} {base : Nat} (above : base ≤ byte.toNat) :
    byte = .ofNat (base + (byte.toNat - base)) := by
  have same : base + (byte.toNat - base) = byte.toNat := by omega
  rw [same, UInt8.ofNat_toNat]

theorem isSurrogate_ofNat {n : Nat} (bound : n < 0x110000) (scalar : n < 0xd800 ∨ 0xdfff < n) :
    CodePoint.isSurrogate (Fin.ofNat 0x110000 n) = false := by
  simp only [CodePoint.isSurrogate, Fin.ofNat, Nat.mod_eq_of_lt bound, Bool.and_eq_false_iff, decide_eq_false_iff_not]
  omega

theorem utf8_ofNat {n : Nat} (bound : n < 0x110000) : CodePoint.utf8 (Fin.ofNat 0x110000 n) =
    if n < 0x80 then [.ofNat n]
    else if n < 0x800 then [.ofNat (0xc0 + n / 0x40), .ofNat (0x80 + n % 0x40)]
    else if n < 0x10000 then [.ofNat (0xe0 + n / 0x1000), .ofNat (0x80 + n / 0x40 % 0x40), .ofNat (0x80 + n % 0x40)]
    else [.ofNat (0xf0 + n / 0x40000), .ofNat (0x80 + n / 0x1000 % 0x40), .ofNat (0x80 + n / 0x40 % 0x40),
      .ofNat (0x80 + n % 0x40)] := by
  have value : (Fin.ofNat 0x110000 n).val = n := Nat.mod_eq_of_lt bound
  simp only [CodePoint.utf8, value]

/-- What a complete run begins with: one character, its bytes and the run behind it. -/
def Begins (bytes : List UInt8) (text : Text) : Prop :=
  ∃ c tail rest, text = c :: tail ∧ bytes = c.utf8 ++ rest ∧ c.isSurrogate = false ∧ idle.run rest = some (tail, idle)

theorem begins_two {top : Nat} {bytes : List UInt8} {text : Text} (bounds : 2 ≤ top ∧ top < 0x20)
    (ran : idle.run (.ofNat (0xc0 + top) :: bytes) = some (text, idle)) : Begins (.ofNat (0xc0 + top) :: bytes) text := by
  rw [run_cons (lead_two bounds)] at ran
  obtain ⟨⟨text', last⟩, middle, same⟩ := Option.map_eq_some_iff.mp ran
  cases same
  obtain ⟨bits, rest, rfl, low, high, ended, -⟩ := run_middle (by omega) middle
  obtain ⟨tail, isText, rested⟩ := ended rfl
  refine ⟨_, tail, rest, isText, ?_, isSurrogate_ofNat (by omega) (by omega), rested⟩
  rw [utf8_ofNat (by omega), if_neg (by omega), if_pos (by omega)]
  have first : (top * 0x40 + bits) / 0x40 = top := by omega
  have second : (top * 0x40 + bits) % 0x40 = bits := by omega
  rw [first, second]
  rfl

theorem begins_three {top : Nat} {bytes : List UInt8} {text : Text} (bound : top < 0x10)
    (ran : idle.run (.ofNat (0xe0 + top) :: bytes) = some (text, idle)) : Begins (.ofNat (0xe0 + top) :: bytes) text := by
  obtain ⟨above, below, overlong, surrogate⟩ := secondOfThree_bounds bound
  rw [run_cons (lead_three bound)] at ran
  obtain ⟨⟨text', last⟩, middle, same⟩ := Option.map_eq_some_iff.mp ran
  cases same
  obtain ⟨bits, rest, rfl, low, high, -, more⟩ := run_middle ⟨above, below⟩ middle
  obtain ⟨bits', rest', rfl, low', high', ended, -⟩ := run_middle (by omega) (more (by omega))
  obtain ⟨tail, isText, rested⟩ := ended rfl
  refine ⟨_, tail, rest', isText, ?_, isSurrogate_ofNat (by omega) (by omega), rested⟩
  rw [utf8_ofNat (by omega), if_neg (by omega), if_neg (by omega), if_pos (by omega)]
  have first : ((top * 0x40 + bits) * 0x40 + bits') / 0x1000 = top := by omega
  have second : ((top * 0x40 + bits) * 0x40 + bits') / 0x40 % 0x40 = bits := by omega
  have third : ((top * 0x40 + bits) * 0x40 + bits') % 0x40 = bits' := by omega
  rw [first, second, third]
  rfl

theorem begins_four {top : Nat} {bytes : List UInt8} {text : Text} (bound : top < 5)
    (ran : idle.run (.ofNat (0xf0 + top) :: bytes) = some (text, idle)) : Begins (.ofNat (0xf0 + top) :: bytes) text := by
  obtain ⟨above, below, overlong, beyond⟩ := secondOfFour_bounds bound
  rw [run_cons (lead_four bound)] at ran
  obtain ⟨⟨text', last⟩, middle, same⟩ := Option.map_eq_some_iff.mp ran
  cases same
  obtain ⟨bits, rest, rfl, low, high, -, more⟩ := run_middle ⟨above, below⟩ middle
  obtain ⟨bits', rest', rfl, low', high', -, more'⟩ := run_middle (by omega) (more (by omega))
  obtain ⟨bits'', rest'', rfl, low'', high'', ended, -⟩ := run_middle (by omega) (more' (by omega))
  obtain ⟨tail, isText, rested⟩ := ended rfl
  refine ⟨_, tail, rest'', isText, ?_, isSurrogate_ofNat (by omega) (by omega), rested⟩
  rw [utf8_ofNat (by omega), if_neg (by omega), if_neg (by omega), if_neg (by omega)]
  have first : (((top * 0x40 + bits) * 0x40 + bits') * 0x40 + bits'') / 0x40000 = top := by omega
  have second : (((top * 0x40 + bits) * 0x40 + bits') * 0x40 + bits'') / 0x1000 % 0x40 = bits := by omega
  have third : (((top * 0x40 + bits) * 0x40 + bits') * 0x40 + bits'') / 0x40 % 0x40 = bits' := by omega
  have fourth : (((top * 0x40 + bits) * 0x40 + bits') * 0x40 + bits'') % 0x40 = bits'' := by omega
  rw [first, second, third, fourth]
  rfl

/-- A complete run of bytes begins with the UTF-8 form of its first character. -/
theorem run_begins {byte : UInt8} {bytes : List UInt8} {text : Text} (ran : idle.run (byte :: bytes) = some (text, idle)) :
    Begins (byte :: bytes) text := by
  have small := byte.toNat_lt
  by_cases one : byte.toNat < 0x80
  · have stepped : step idle byte = some (idle, some (Fin.ofNat 0x110000 byte.toNat)) := by simp [step, idle, lead, one]
    rw [run_cons stepped] at ran
    obtain ⟨⟨tail, last⟩, rested, same⟩ := Option.map_eq_some_iff.mp ran
    cases same
    refine ⟨_, tail, bytes, rfl, ?_, isSurrogate_ofNat (by omega) (by omega), rested⟩
    rw [utf8_ofNat (by omega), if_pos one, UInt8.ofNat_toNat]
    rfl
  by_cases stray : byte.toNat < 0xc2
  · simp [run, step, idle, lead, one, stray] at ran
  by_cases two : byte.toNat < 0xe0
  · rw [ofNat_toNat_add (by omega : 0xc0 ≤ byte.toNat)] at ran ⊢
    exact begins_two (by omega) ran
  by_cases three : byte.toNat < 0xf0
  · rw [ofNat_toNat_add (by omega : 0xe0 ≤ byte.toNat)] at ran ⊢
    exact begins_three (by omega) ran
  by_cases four : byte.toNat < 0xf5
  · rw [ofNat_toNat_add (by omega : 0xf0 ≤ byte.toNat)] at ran ⊢
    exact begins_four (by omega) ran
  · have none : step idle byte = none := by
      have lead : lead byte.toNat = none := by
        unfold lead
        repeat rw [if_neg (by omega)]
      simp [step, idle, lead]
    simp [run, none] at ran

/-- Strict decoding is the inverse of strict encoding. -/
theorem run_iff {bytes : List UInt8} {text : Text} :
    idle.run bytes = some (text, idle) ↔ text.encode = some bytes := by
  constructor
  · intro ran
    induction text generalizing bytes with
    | nil =>
      cases bytes with
      | nil => rfl
      | cons byte bytes =>
        obtain ⟨c, tail, rest, absurd, -⟩ := run_begins ran
        cases absurd
    | cons c text ih =>
      cases bytes with
      | nil => cases ran
      | cons byte bytes =>
        obtain ⟨c', tail, rest, same, split, scalar, rested⟩ := run_begins ran
        cases same
        rw [split]
        have encoded := ih rested
        simp only [Text.encode, Option.ite_none_left_eq_some, Option.some.injEq] at encoded ⊢
        simp only [List.any_cons, scalar, Bool.false_or]
        exact ⟨encoded.1, by rw [← encoded.2]; rfl⟩
  · intro encoded
    induction text generalizing bytes with
    | nil =>
      simp only [Text.encode, List.any_nil, Bool.false_eq_true, if_false, Option.some.injEq] at encoded
      subst encoded
      rfl
    | cons c text ih =>
      simp only [Text.encode, Option.ite_none_left_eq_some, Option.some.injEq, List.any_cons, Bool.or_eq_true, not_or,
        Bool.not_eq_true] at encoded
      obtain ⟨⟨scalar, scalars⟩, rfl⟩ := encoded
      have rested := @ih (Text.utf8 text) (by simp [Text.encode, scalars])
      rw [Text.utf8, List.flatMap_cons, run_utf8 scalar]
      rw [← Text.utf8, rested]
      rfl

end Utf8Decoder
