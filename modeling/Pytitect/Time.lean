import Pytitect.Core
import Pytitect.Lib.Decimal

namespace Pytitect
open JsonText

def isLeap (year : Nat) : Bool := year % 4 = 0 && (year % 100 ≠ 0 || year % 400 = 0)

def daysInMonth (year month : Nat) : Nat :=
  if month = 2 then if isLeap year then 29 else 28
  else if month = 4 ∨ month = 6 ∨ month = 9 ∨ month = 11 then 30
  else 31

/-- The fields that `datetime` admits. -/
def Calendar (year month day hour minute second microsecond : Nat) : Prop :=
  (1 ≤ year ∧ year ≤ 9999) ∧ (1 ≤ month ∧ month ≤ 12) ∧ (1 ≤ day ∧ day ≤ daysInMonth year month) ∧ hour < 24 ∧
    minute < 60 ∧ second < 60 ∧ microsecond < 1000000

instance (year month day hour minute second microsecond : Nat) :
    Decidable (Calendar year month day hour minute second microsecond) := by
  unfold Calendar
  infer_instance

/-- A timezone-aware UTC `datetime`, by its fields. -/
structure Datetime where
  year : Nat
  month : Nat
  day : Nat
  hour : Nat
  minute : Nat
  second : Nat
  microsecond : Nat
  valid : Calendar year month day hour minute second microsecond
  deriving DecidableEq

namespace Datetime

/-- The order of instants: the first field that differs decides. -/
def before (first second : Datetime) : Bool :=
  let fields (d : Datetime) : List Nat := [d.year, d.month, d.day, d.hour, d.minute, d.second, d.microsecond]
  fields first < fields second

/-- `YYYY-MM-DDTHH:MM:SS.sssZ` -/
def milliseconds (d : Datetime) : Text :=
  Decimal.padded 4 d.year ++ 0x2d :: (Decimal.padded 2 d.month ++ 0x2d :: (Decimal.padded 2 d.day ++ 0x54 ::
    (Decimal.padded 2 d.hour ++ 0x3a :: (Decimal.padded 2 d.minute ++ 0x3a :: (Decimal.padded 2 d.second ++ 0x2e ::
      (Decimal.padded 3 (d.microsecond / 1000) ++ [0x5a]))))))

end Datetime

/-- `\d` as often as the width says. Other decimal digits than these are refused by
`datetime.fromisoformat` when the pattern admits them. -/
def digitsOfWidth (width : Nat) (text : Text) : Option (Nat × Text) :=
  if text.length < width ∨ (text.take width).any (fun c => !isDigit c) then none
  else some (Decimal.read (text.take width), text.drop width)

def signOf (expected : CodePoint) : Text → Option Text
  | c :: rest => if c = expected then some rest else none
  | [] => none

/-- The fields of a text that matches `\d{4}-\d{2}-\d{2}T\d{2}:\d{2}:\d{2}\.\d{3}Z`. -/
def timestampFields (text : Text) : Option (Nat × Nat × Nat × Nat × Nat × Nat × Nat) := do
  let (year, rest) ← digitsOfWidth 4 text
  let rest ← signOf 0x2d rest
  let (month, rest) ← digitsOfWidth 2 rest
  let rest ← signOf 0x2d rest
  let (day, rest) ← digitsOfWidth 2 rest
  let rest ← signOf 0x54 rest
  let (hour, rest) ← digitsOfWidth 2 rest
  let rest ← signOf 0x3a rest
  let (minute, rest) ← digitsOfWidth 2 rest
  let rest ← signOf 0x3a rest
  let (second, rest) ← digitsOfWidth 2 rest
  let rest ← signOf 0x2e rest
  let (millisecond, rest) ← digitsOfWidth 3 rest
  let rest ← signOf 0x5a rest
  if rest = [] then some (year, month, day, hour, minute, second, millisecond) else none

/-- `datetime.fromisoformat` of such a text with `+00:00` for its `Z`. -/
def fromFields : Nat × Nat × Nat × Nat × Nat × Nat × Nat → Option Datetime
  | (year, month, day, hour, minute, second, millisecond) =>
    if valid : Calendar year month day hour minute second (millisecond * 1000) then
      some ⟨year, month, day, hour, minute, second, millisecond * 1000, valid⟩
    else none

theorem digitsOfWidth_padded {width n : Nat} (small : n < 10 ^ width) (rest : Text) :
    digitsOfWidth width (Decimal.padded width n ++ rest) = some (n, rest) := by
  have length := Decimal.length_padded width n
  have front : (Decimal.padded width n ++ rest).take width = Decimal.padded width n := List.take_left' length
  have back : (Decimal.padded width n ++ rest).drop width = rest := List.drop_left' length
  have all : (Decimal.padded width n).any (fun c => !isDigit c) = false := by
    rw [List.any_eq_false]
    intro c member
    rw [Decimal.padded_isDigit width n c member]
    decide
  unfold digitsOfWidth
  rw [front, back, all, Decimal.read_padded small, if_neg]
  rw [List.length_append, length]
  rintro (short | absurd)
  · omega
  · cases absurd

theorem signOf_cons (c : CodePoint) (rest : Text) : signOf c (c :: rest) = some rest := if_pos rfl

theorem bind_some_eq {α β : Type} {x : Option α} {a : α} (found : x = some a) (f : α → Option β) : (x >>= f) = f a := by
  rw [found]
  rfl

/-- A rendered datetime has the fields it was rendered from. -/
theorem timestampFields_milliseconds (d : Datetime) : timestampFields d.milliseconds =
    some (d.year, d.month, d.day, d.hour, d.minute, d.second, d.microsecond / 1000) := by
  obtain ⟨year, month, day, hour, minute, second, microsecond, valid⟩ := d
  obtain ⟨years, months, days, hours, minutes, seconds, microseconds⟩ := id valid
  have longest : daysInMonth year month ≤ 31 := by
    unfold daysInMonth
    split
    · split <;> decide
    · split <;> decide
  have y : year < 10 ^ 4 := by omega
  have mo : month < 10 ^ 2 := by omega
  have da : day < 10 ^ 2 := by omega
  have ho : hour < 10 ^ 2 := by omega
  have mi : minute < 10 ^ 2 := by omega
  have se : second < 10 ^ 2 := by omega
  have ms : microsecond / 1000 < 10 ^ 3 := by omega
  unfold timestampFields Datetime.milliseconds
  rw [bind_some_eq (digitsOfWidth_padded y _)]
  dsimp only
  rw [bind_some_eq (signOf_cons _ _), bind_some_eq (digitsOfWidth_padded mo _)]
  dsimp only
  rw [bind_some_eq (signOf_cons _ _), bind_some_eq (digitsOfWidth_padded da _)]
  dsimp only
  rw [bind_some_eq (signOf_cons _ _), bind_some_eq (digitsOfWidth_padded ho _)]
  dsimp only
  rw [bind_some_eq (signOf_cons _ _), bind_some_eq (digitsOfWidth_padded mi _)]
  dsimp only
  rw [bind_some_eq (signOf_cons _ _), bind_some_eq (digitsOfWidth_padded se _)]
  dsimp only
  rw [bind_some_eq (signOf_cons _ _), bind_some_eq (digitsOfWidth_padded ms _)]
  dsimp only
  rw [bind_some_eq (signOf_cons _ _), if_pos rfl]

/-- A datetime of whole milliseconds is read back. -/
theorem fromFields_milliseconds {d : Datetime} (whole : d.microsecond % 1000 = 0) :
    (timestampFields d.milliseconds).bind fromFields = some d := by
  rw [timestampFields_milliseconds, Option.bind_some]
  obtain ⟨year, month, day, hour, minute, second, microsecond, valid⟩ := d
  have same : microsecond / 1000 * 1000 = microsecond := by
    dsimp only at whole
    omega
  unfold fromFields
  dsimp only
  simp only [same]
  rw [dif_pos valid]

end Pytitect
