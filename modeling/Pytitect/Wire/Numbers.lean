import Pytitect.Lib.Binary64
import Pytitect.Wire.Ordinary

namespace Pytitect.Wire
open JsonText

/-- `_INTEGER.fullmatch` -/
def isInteger (token : Text) : Bool := afterInteger (afterSign token) = some []

def isNegative (token : Text) : Bool := token.head? = some 0x2d

/-- The loop of `to_int`, by nine digits at a time. -/
def readChunks (digits : Text) : Nat :=
  (List.range ((digits.length + 8) / 9)).foldl (fun result start =>
    let chunk := (digits.drop (9 * start)).take 9
    result * 10 ^ chunk.length + Decimal.read chunk) 0

def ExactNumber.toInt (number : ExactNumber) : Except WireError Int :=
  if ¬isInteger number.token then .error .precision
  else
    let result : Int := readChunks (afterSign number.token)
    .ok (if isNegative number.token then -result else result)

namespace ExactNumber
variable (number : ExactNumber)

def mantissa : Text := (afterSign number.token).takeWhile fun c => c ≠ 0x65 && c ≠ 0x45

/-- The digits of the token before its exponent, without the point. -/
def coefficient : Nat := Decimal.read (number.mantissa.filter isDigit)

/-- The exponent of the coefficient: what the token says, less the digits after the point. -/
def exponent : Int :=
  let power := ((afterSign number.token).dropWhile fun c => c ≠ 0x65 && c ≠ 0x45).drop 1
  let digits : Int := Decimal.read (afterExponentSign power)
  (if isNegative power then -digits else digits) - ((number.mantissa.dropWhile isDigit).drop 1).length

/-- The number that the token denotes. -/
def value : ℚ := Binary64.decimalValue (isNegative number.token) number.coefficient number.exponent

/-- `float` of the token. -/
def float : UInt64 := Binary64.ofDecimal (isNegative number.token) number.coefficient number.exponent

/-- `Decimal` takes the token without a change: the last digit and the first one lie
between `MIN_ETINY` and `MAX_EMAX`. -/
def InDecimalRange : Prop :=
  -1999999999999999997 ≤ number.exponent ∧
    number.exponent + (Decimal.numeral number.coefficient).length - 1 ≤ 999999999999999999

instance : Decidable number.InDecimalRange := by
  unfold InDecimalRange
  infer_instance

/-- `to_float`: no conversion that rounds, overflows or underflows. -/
def toFloat : Except WireError UInt64 :=
  if JsonValue.isFinite number.float ∧ number.InDecimalRange ∧ Binary64.value number.float = number.value then
    .ok number.float
  else .error .precision

end ExactNumber

/-- The number of a token in `_ordinary`. -/
def ordinaryNumber (checked : Bool) (number : ExactNumber) : Except WireError JsonValue :=
  if isInteger number.token then number.toInt.map .int
  else if checked then number.toFloat.map .float
  else if JsonValue.isFinite number.float then .ok (.float number.float)
  else .error .precision

mutual

/-- A value with every number converted. -/
def convert (number : ExactNumber → Except WireError JsonValue) : ExactTree → Except WireError JsonValue
  | .null => .ok .null
  | .bool value => .ok (.bool value)
  | .number value => number value
  | .str value => .ok (.str value)
  | .array values => do return .list (← convertAll number values)
  | .object members => do return .dict (← convertMembers number members)

def convertAll (number : ExactNumber → Except WireError JsonValue) : List ExactTree → Except WireError (List JsonValue)
  | [] => .ok []
  | value :: rest => do
    let first ← convert number value
    let others ← convertAll number rest
    return first :: others

def convertMembers (number : ExactNumber → Except WireError JsonValue) :
    List (Text × ExactTree) → Except WireError (List (Text × JsonValue))
  | [] => .ok []
  | (key, value) :: rest => do
    let first ← convert number value
    let others ← convertMembers number rest
    return (key, first) :: others

end

mutual

/-- The numbers of a value, in their order. -/
def ExactTree.numbers : ExactTree → List ExactNumber
  | .number value => [value]
  | .array values => ExactTree.numbersAll values
  | .object members => ExactTree.numbersMembers members
  | _ => []

def ExactTree.numbersAll : List ExactTree → List ExactNumber
  | [] => []
  | value :: rest => ExactTree.numbers value ++ ExactTree.numbersAll rest

def ExactTree.numbersMembers : List (Text × ExactTree) → List ExactNumber
  | [] => []
  | (_, value) :: rest => ExactTree.numbers value ++ ExactTree.numbersMembers rest

end

theorem ExactTree.mem_numbersAll {values : List ExactTree} {n : ExactNumber} :
    n ∈ ExactTree.numbersAll values ↔ ∃ value ∈ values, n ∈ value.numbers := by
  induction values with
  | nil => simp [ExactTree.numbersAll]
  | cons value rest ih => simp [ExactTree.numbersAll, ih]

theorem ExactTree.mem_numbersMembers {members : List (Text × ExactTree)} {n : ExactNumber} :
    n ∈ ExactTree.numbersMembers members ↔ ∃ member ∈ members, n ∈ member.2.numbers := by
  induction members with
  | nil => simp [ExactTree.numbersMembers]
  | cons member rest ih => simp only [ExactTree.numbersMembers, List.mem_append, List.exists_mem_cons_iff, ih]

/-- `_ordinary` -/
def ordinary (checked : Bool) (value : ExactTree) : Except WireError JsonValue := convert (ordinaryNumber checked) value

/-- `WireDocument.to_json` -/
def WireDocument.toJson (document : WireDocument) : Except WireError JsonValue := ordinary true document.value

/-- `_integer_token`: the chunks of nine digits, the first one without zeros before it. -/
def integerToken (value : Int) : Text :=
  if value = 0 then [0x30]
  else
    let chunks := Nat.digits 1000000000 value.natAbs
    (if value < 0 then [0x2d] else []) ++ (Decimal.numeral (chunks.getLastD 0) ++
      chunks.dropLast.reverse.flatMap (Decimal.padded 9))

mutual

/-- `_legacy_value` -/
def legacyValue (interpreter : Interpreter) : JsonValue → Except WireError ExactTree
  | .null => .ok .null
  | .bool value => .ok (.bool value)
  | .int value => do return .number (← ExactNumber.ofToken (integerToken value))
  | .float bits => if JsonValue.isFinite bits then .ok (.number (interpreter.floatToken bits)) else .error .precision
  | .str value => .ok (.str value)
  | .list items => do return .array (← legacyAll interpreter items)
  | .dict members => do return .object (← legacyMembers interpreter members)

def legacyAll (interpreter : Interpreter) : List JsonValue → Except WireError (List ExactTree)
  | [] => .ok []
  | item :: rest => do
    let first ← legacyValue interpreter item
    let others ← legacyAll interpreter rest
    return first :: others

def legacyMembers (interpreter : Interpreter) : List (Text × JsonValue) → Except WireError (List (Text × ExactTree))
  | [] => .ok []
  | (key, item) :: rest => do
    let first ← legacyValue interpreter item
    let others ← legacyMembers interpreter rest
    return (key, first) :: others

end

theorem readChunks_eq (digits : Text) : readChunks digits = Decimal.read digits := by
  have prefixes : ∀ n, (List.range n).foldl (fun result start =>
      let chunk := (digits.drop (9 * start)).take 9
      result * 10 ^ chunk.length + Decimal.read chunk) 0 = Decimal.read (digits.take (9 * n)) := by
    intro n
    induction n with
    | zero => rfl
    | succ n ih =>
      rw [List.range_succ, List.foldl_append, ih, List.foldl_cons, List.foldl_nil, Nat.mul_succ, List.take_add,
        Decimal.read_append]
  unfold readChunks
  rw [prefixes, List.take_of_length_le]
  omega

theorem isInteger_iff {token : Text} :
    isInteger token = true ↔ ∃ sign integer, (sign = [] ∨ sign = [0x2d]) ∧ IntegerText integer ∧ token = sign ++ integer := by
  unfold isInteger
  rw [decide_eq_true_iff]
  constructor
  · intro found
    obtain ⟨sign, signed, split⟩ := afterSign_split token
    obtain ⟨integer, proper, same⟩ := afterInteger_some found
    rw [List.append_nil] at same
    exact ⟨sign, integer, signed, proper, by rw [split, same]⟩
  · rintro ⟨sign, integer, signed, proper, rfl⟩
    have whole := afterInteger_append proper noDigit_nil
    have unsigned : afterSign (integer ++ []) = integer ++ [] := afterSign_integer proper
    rw [List.append_nil] at whole unsigned
    rcases signed with rfl | rfl
    · rw [List.nil_append, unsigned, whole]
    · exact whole

/-- The integer that an integer token denotes. -/
def integerValue (token : Text) : Int :=
  if isNegative token then -(Decimal.read (afterSign token) : Int) else Decimal.read (afterSign token)

theorem toInt_iff {number : ExactNumber} {n : Int} :
    number.toInt = .ok n ↔ isInteger number.token = true ∧ n = integerValue number.token := by
  unfold ExactNumber.toInt integerValue
  dsimp only
  rw [readChunks_eq]
  split
  · rename_i other
    exact ⟨fun absurd => (by cases absurd), fun holds => absurd holds.1 other⟩
  · rename_i integer
    rw [not_not] at integer
    rw [Except.ok.injEq]
    exact ⟨fun same => ⟨integer, same.symm⟩, fun holds => holds.2.symm⟩

theorem numeral_not_sign (n : Nat) : (Decimal.numeral n).head? ≠ some 0x2d ∧ afterSign (Decimal.numeral n) = Decimal.numeral n := by
  have proper := Decimal.numeral_digits n
  obtain ⟨some, all⟩ := proper
  cases shape : Decimal.numeral n with
  | nil => exact absurd shape some
  | cons c rest =>
    have digit := isDigit_bounds.mp (all c (by rw [shape]; simp))
    have other : c ≠ 0x2d := by
      rintro rfl
      exact absurd digit (by decide)
    refine ⟨?_, if_neg other⟩
    rw [List.head?_cons, Ne, Option.some.injEq]
    exact other

/-- The token of an integer denotes it. -/
theorem integerValue_signed (n : Int) : isInteger (Decimal.signed n) = true ∧ integerValue (Decimal.signed n) = n := by
  obtain ⟨unsigned, same⟩ := numeral_not_sign n.natAbs
  unfold Decimal.signed
  split
  · refine ⟨isInteger_iff.mpr ⟨[0x2d], _, Or.inr rfl, Decimal.numeral_integer _, rfl⟩, ?_⟩
    have rest : afterSign (0x2d :: Decimal.numeral n.natAbs) = Decimal.numeral n.natAbs := rfl
    have minus : isNegative (0x2d :: Decimal.numeral n.natAbs) = true := rfl
    rw [integerValue, minus, if_pos rfl, rest, Decimal.read_numeral]
    omega
  · refine ⟨isInteger_iff.mpr ⟨[], _, Or.inl rfl, Decimal.numeral_integer _, rfl⟩, ?_⟩
    have plain : isNegative (Decimal.numeral n.natAbs) = false := decide_eq_false unsigned
    rw [integerValue, plain, same, Decimal.read_numeral, if_neg (by decide)]
    omega

/-- The tokens of a natural number: its numeral, and for zero also the one with a sign. -/
theorem toInt_natural {number : ExactNumber} {n : Nat} :
    number.toInt = .ok (n : Int) ↔ number = JsonValue.intToken n ∨ n = 0 ∧ number.token = [0x2d, 0x30] := by
  have whole : Decimal.signed n = Decimal.numeral n := by
    unfold Decimal.signed
    rw [if_neg (by omega), Int.natAbs_natCast]
  rw [toInt_iff]
  constructor
  · rintro ⟨integer, value⟩
    obtain ⟨sign, digits, signed, proper, split⟩ := isInteger_iff.mp integer
    have numeral := Decimal.numeral_read proper
    have after : afterSign number.token = digits := by
      rcases signed with rfl | rfl
      · have unsigned : afterSign (digits ++ []) = digits ++ [] := afterSign_integer proper
        rw [List.append_nil] at unsigned
        rw [split, List.nil_append, unsigned]
      · rw [split]
        rfl
    unfold integerValue at value
    rw [after] at value
    rcases signed with rfl | rfl
    · have plain := (numeral_not_sign (Decimal.read digits)).1
      rw [numeral] at plain
      have positive : isNegative number.token = false := by
        rw [split]
        exact decide_eq_false plain
      rw [positive, if_neg (by decide), Int.natCast_inj] at value
      refine Or.inl ?_
      obtain ⟨token, _⟩ := number
      rw [List.nil_append] at split
      dsimp only at split
      subst split
      rw [JsonValue.intToken, ExactNumber.mk.injEq, whole, value, numeral]
    · have negative : isNegative number.token = true := by
        rw [split]
        rfl
      rw [negative, if_pos rfl] at value
      have none : Decimal.read digits = 0 := by omega
      rw [none] at numeral
      refine Or.inr ⟨by omega, ?_⟩
      rw [split, ← numeral]
      rfl
  · rintro (rfl | ⟨rfl, minus⟩)
    · obtain ⟨integer, value⟩ := integerValue_signed n
      exact ⟨integer, value.symm⟩
    · rw [minus]
      exact ⟨by decide, by decide⟩

/-- The chunks of a number make its numeral. -/
theorem chunks_numeral {n : Nat} (positive : 0 < n) :
    Decimal.numeral ((Nat.digits 1000000000 n).getLastD 0) ++
      (Nat.digits 1000000000 n).dropLast.reverse.flatMap (Decimal.padded 9) = Decimal.numeral n := by
  induction n using Nat.strongRecOn with
  | ind n ih =>
    rw [Nat.digits_def' (by decide) positive]
    by_cases small : n < 1000000000
    · rw [Nat.div_eq_of_lt small, Nat.digits_zero, Nat.mod_eq_of_lt small]
      simp
    · have rest : 0 < n / 1000000000 := by omega
      have later := ih (n / 1000000000) (by omega) rest
      have some : Nat.digits 1000000000 (n / 1000000000) ≠ [] := Nat.digits_ne_nil_iff_ne_zero.mpr (by omega)
      have whole : n = n / 1000000000 * 10 ^ 9 + n % 1000000000 := by omega
      have last : (n % 1000000000 :: Nat.digits 1000000000 (n / 1000000000)).getLastD 0 =
          (Nat.digits 1000000000 (n / 1000000000)).getLastD 0 := by
        rw [List.getLastD_cons, List.getLastD_eq_getLast?, List.getLastD_eq_getLast?, List.getLast?_eq_some_getLast some]
        rfl
      rw [last, List.dropLast_cons_of_ne_nil some, List.reverse_cons, List.flatMap_append, ← List.append_assoc, later,
        List.flatMap_singleton]
      conv_rhs => rw [whole]
      exact (Decimal.numeral_append rest (Nat.mod_lt _ (by decide))).symm

/-- `_integer_token` writes what `str` would write. -/
theorem integerToken_eq (n : Int) : integerToken n = Decimal.signed n := by
  unfold integerToken Decimal.signed
  split
  · rename_i zero
    rw [zero]
    rfl
  · dsimp only
    rw [chunks_numeral (by omega)]
    split
    · rfl
    · rfl

section
variable {interpreter : Interpreter} {checked : Bool}

theorem legacyAll_eq {items : List JsonValue} (each : ∀ item ∈ items, legacyValue interpreter item = .ok (item.exact interpreter)) :
    legacyAll interpreter items = .ok (JsonValue.exactAll interpreter items) := by
  induction items with
  | nil => rfl
  | cons item rest ih =>
    rw [List.forall_mem_cons] at each
    rw [legacyAll, each.1, ih each.2]
    rfl

theorem legacyMembers_eq {members : List (Text × JsonValue)}
    (each : ∀ member ∈ members, legacyValue interpreter member.2 = .ok (member.2.exact interpreter)) :
    legacyMembers interpreter members = .ok (JsonValue.exactMembers interpreter members) := by
  induction members with
  | nil => rfl
  | cons member rest ih =>
    rw [List.forall_mem_cons] at each
    rw [legacyMembers, each.1, ih each.2]
    rfl

/-- `_legacy_value` writes every number of a value with finite floats as its token. -/
theorem legacyValue_eq {value : JsonValue} (finite : value.Numbers (fun _ => True) fun bits => JsonValue.isFinite bits = true) :
    legacyValue interpreter value = .ok (value.exact interpreter) := by
  induction value using JsonValue.induct with
  | null => rfl
  | bool value => rfl
  | int value =>
    rw [legacyValue, integerToken_eq]
    exact bind_ok_iff.mpr ⟨JsonValue.intToken value, dif_pos _, rfl⟩
  | float bits => exact if_pos finite
  | str value => rfl
  | list items ih =>
    rw [JsonValue.Numbers, JsonValue.numbersAll_iff] at finite
    rw [legacyValue, legacyAll_eq fun item member => ih item member (finite item member)]
    rfl
  | dict members ih =>
    rw [JsonValue.Numbers, JsonValue.numbersMembers_iff] at finite
    rw [legacyValue, legacyMembers_eq fun member found => ih member found (finite member found)]
    rfl

section
variable {number : ExactNumber → Except WireError JsonValue}

theorem convertAll_iff {values : List ExactTree} {items : List JsonValue} :
    convertAll number values = .ok items ↔ List.Forall₂ (fun value item => convert number value = .ok item) values items := by
  induction values generalizing items with
  | nil =>
    rw [convertAll, Except.ok.injEq, List.forall₂_nil_left_iff]
    exact eq_comm
  | cons value rest ih =>
    rw [convertAll, bind_ok_iff]
    constructor
    · rintro ⟨first, found, passed⟩
      obtain ⟨others, later, passed⟩ := bind_ok passed
      cases passed
      exact .cons found (ih.mp later)
    · intro all
      cases all with
      | cons found later => exact ⟨_, found, bind_ok_iff.mpr ⟨_, ih.mpr later, rfl⟩⟩

theorem convertMembers_iff {members : List (Text × ExactTree)} {found : List (Text × JsonValue)} :
    convertMembers number members = .ok found ↔
      List.Forall₂ (fun member other => member.1 = other.1 ∧ convert number member.2 = .ok other.2) members found := by
  induction members generalizing found with
  | nil =>
    rw [convertMembers, Except.ok.injEq, List.forall₂_nil_left_iff]
    exact eq_comm
  | cons member rest ih =>
    rw [convertMembers, bind_ok_iff]
    constructor
    · rintro ⟨first, read, passed⟩
      obtain ⟨others, later, passed⟩ := bind_ok passed
      cases passed
      exact .cons ⟨rfl, read⟩ (ih.mp later)
    · intro all
      cases all with
      | @cons _ other _ _ read later =>
        refine ⟨_, read.2, bind_ok_iff.mpr ⟨_, ih.mpr later, ?_⟩⟩
        rw [read.1]
        rfl

theorem convert_array_iff {values : List ExactTree} {found : JsonValue} : convert number (.array values) = .ok found ↔
    ∃ items, found = .list items ∧ List.Forall₂ (fun value item => convert number value = .ok item) values items := by
  rw [convert, bind_ok_iff]
  constructor
  · rintro ⟨items, all, passed⟩
    exact ⟨items, (Except.ok.inj passed).symm, convertAll_iff.mp all⟩
  · rintro ⟨items, rfl, all⟩
    exact ⟨items, convertAll_iff.mpr all, rfl⟩

theorem convert_object_iff {members : List (Text × ExactTree)} {found : JsonValue} :
    convert number (.object members) = .ok found ↔ ∃ others, found = .dict others ∧
      List.Forall₂ (fun member other => member.1 = other.1 ∧ convert number member.2 = .ok other.2) members others := by
  rw [convert, bind_ok_iff]
  constructor
  · rintro ⟨others, all, passed⟩
    exact ⟨others, (Except.ok.inj passed).symm, convertMembers_iff.mp all⟩
  · rintro ⟨others, rfl, all⟩
    exact ⟨others, convertMembers_iff.mpr all, rfl⟩

/-- A conversion that takes more numbers takes more values. -/
theorem convert_mono {other : ExactNumber → Except WireError JsonValue} (more : ∀ n item, number n = .ok item → other n = .ok item)
    {tree : ExactTree} {item : JsonValue} (found : convert number tree = .ok item) : convert other tree = .ok item := by
  induction tree using ExactTree.induct generalizing item with
  | null => exact found
  | bool value => exact found
  | number value => exact more value item found
  | str value => exact found
  | array values ih =>
    obtain ⟨items, rfl, all⟩ := convert_array_iff.mp found
    refine convert_array_iff.mpr ⟨items, rfl, ?_⟩
    clear found
    induction all with
    | nil => exact .nil
    | cons read _ ihRest =>
      rw [List.forall_mem_cons] at ih
      exact .cons (ih.1 read) (ihRest ih.2)
  | object members ih =>
    obtain ⟨others, rfl, all⟩ := convert_object_iff.mp found
    refine convert_object_iff.mpr ⟨others, rfl, ?_⟩
    clear found
    induction all with
    | nil => exact .nil
    | cons read _ ihRest =>
      rw [List.forall_mem_cons] at ih
      exact .cons ⟨read.1, ih.1 read.2⟩ (ihRest ih.2)

/-- A value is converted, or some number of it is not and the error is that of a number. -/
theorem convert_total {failure : WireError} (settled : ∀ n, (∃ item, number n = .ok item) ∨ number n = .error failure)
    (tree : ExactTree) :
    ((∀ n ∈ tree.numbers, ∃ item, number n = .ok item) ∧ ∃ item, convert number tree = .ok item) ∨
      ((∃ n ∈ tree.numbers, number n = .error failure) ∧ convert number tree = .error failure) := by
  induction tree using ExactTree.induct with
  | null => exact Or.inl ⟨by simp [ExactTree.numbers], _, rfl⟩
  | bool value => exact Or.inl ⟨by simp [ExactTree.numbers], _, rfl⟩
  | number value =>
    rcases settled value with read | failed
    · exact Or.inl ⟨by simpa [ExactTree.numbers] using read, read⟩
    · exact Or.inr ⟨⟨value, by simp [ExactTree.numbers], failed⟩, failed⟩
  | str value => exact Or.inl ⟨by simp [ExactTree.numbers], _, rfl⟩
  | array values ih =>
    have whole : ((∀ n ∈ ExactTree.numbersAll values, ∃ item, number n = .ok item) ∧
        ∃ items, convertAll number values = .ok items) ∨
        ((∃ n ∈ ExactTree.numbersAll values, number n = .error failure) ∧ convertAll number values = .error failure) := by
      induction values with
      | nil => exact Or.inl ⟨by simp [ExactTree.numbersAll], _, rfl⟩
      | cons value rest ihRest =>
        rw [List.forall_mem_cons] at ih
        rw [convertAll, ExactTree.numbersAll]
        rcases ih.1 with ⟨all, item, read⟩ | ⟨⟨n, member, failed⟩, stopped⟩
        · rw [read]
          rcases ihRest ih.2 with ⟨later, items, reads⟩ | ⟨⟨n, member, failed⟩, stopped⟩
          · rw [reads]
            exact Or.inl ⟨fun n member => (List.mem_append.mp member).elim (all n) (later n), _, rfl⟩
          · rw [stopped]
            exact Or.inr ⟨⟨n, List.mem_append_right _ member, failed⟩, rfl⟩
        · rw [stopped]
          exact Or.inr ⟨⟨n, List.mem_append_left _ member, failed⟩, rfl⟩
    rw [convert, ExactTree.numbers]
    rcases whole with ⟨all, items, reads⟩ | ⟨bad, stopped⟩
    · rw [reads]
      exact Or.inl ⟨all, _, rfl⟩
    · rw [stopped]
      exact Or.inr ⟨bad, rfl⟩
  | object members ih =>
    have whole : ((∀ n ∈ ExactTree.numbersMembers members, ∃ item, number n = .ok item) ∧
        ∃ items, convertMembers number members = .ok items) ∨
        ((∃ n ∈ ExactTree.numbersMembers members, number n = .error failure) ∧
          convertMembers number members = .error failure) := by
      induction members with
      | nil => exact Or.inl ⟨by simp [ExactTree.numbersMembers], _, rfl⟩
      | cons member rest ihRest =>
        rw [List.forall_mem_cons] at ih
        rw [convertMembers, ExactTree.numbersMembers]
        rcases ih.1 with ⟨all, item, read⟩ | ⟨⟨n, there, failed⟩, stopped⟩
        · rw [read]
          rcases ihRest ih.2 with ⟨later, items, reads⟩ | ⟨⟨n, there, failed⟩, stopped⟩
          · rw [reads]
            exact Or.inl ⟨fun n there => (List.mem_append.mp there).elim (all n) (later n), _, rfl⟩
          · rw [stopped]
            exact Or.inr ⟨⟨n, List.mem_append_right _ there, failed⟩, rfl⟩
        · rw [stopped]
          exact Or.inr ⟨⟨n, List.mem_append_left _ there, failed⟩, rfl⟩
    rw [convert, ExactTree.numbers]
    rcases whole with ⟨all, items, reads⟩ | ⟨bad, stopped⟩
    · rw [reads]
      exact Or.inl ⟨all, _, rfl⟩
    · rw [stopped]
      exact Or.inr ⟨bad, rfl⟩

/-- A number is converted to a number, which is finite. -/
def Numeric (number : ExactNumber → Except WireError JsonValue) : Prop :=
  ∀ n item, number n = .ok item → (∃ value, item = .int value) ∨ ∃ bits, item = .float bits ∧ JsonValue.isFinite bits = true

/-- A converted value has the shape of the tree. -/
theorem convert_shape (interpreter : Interpreter) (numeric : Numeric number) {tree : ExactTree} {item : JsonValue} (found : convert number tree = .ok item) :
    (item.exact interpreter).items = tree.items ∧ (item.exact interpreter).depth = tree.depth ∧
      (∀ test, (item.exact interpreter).Strings test ↔ tree.Strings test) ∧
      item.Numbers (fun _ => True) fun bits => JsonValue.isFinite bits = true := by
  induction tree using ExactTree.induct generalizing item with
  | null =>
    cases found
    exact ⟨rfl, rfl, fun test => Iff.rfl, trivial⟩
  | bool value =>
    cases found
    exact ⟨rfl, rfl, fun test => Iff.rfl, trivial⟩
  | number value =>
    rcases numeric value item found with ⟨n, rfl⟩ | ⟨bits, rfl, finite⟩
    · exact ⟨rfl, rfl, fun test => Iff.rfl, trivial⟩
    · exact ⟨rfl, rfl, fun test => Iff.rfl, finite⟩
  | str value =>
    cases found
    exact ⟨rfl, rfl, fun test => Iff.rfl, trivial⟩
  | array values ih =>
    obtain ⟨items, rfl, all⟩ := convert_array_iff.mp found
    clear found
    rw [JsonValue.exact, JsonValue.Numbers]
    induction all with
    | nil => exact ⟨rfl, rfl, fun test => Iff.rfl, trivial⟩
    | cons read _ ihRest =>
      rw [List.forall_mem_cons] at ih
      obtain ⟨count, deep, strings, finite⟩ := ih.1 read
      obtain ⟨counts, deeper, others, finites⟩ := ihRest ih.2
      simp only [JsonValue.exactAll, ExactTree.items, ExactTree.itemsAll, ExactTree.depth, ExactTree.depthAll,
        ExactTree.Strings, ExactTree.StringsAll] at counts deeper others ⊢
      exact ⟨by omega, by rw [deep, deeper], fun test => and_congr (strings test) (others test), finite, finites⟩
  | object members ih =>
    obtain ⟨others, rfl, all⟩ := convert_object_iff.mp found
    clear found
    rw [JsonValue.exact, JsonValue.Numbers]
    induction all with
    | nil => exact ⟨rfl, rfl, fun test => Iff.rfl, trivial⟩
    | @cons member other _ _ read _ ihRest =>
      obtain ⟨key, value⟩ := member
      obtain ⟨key', item⟩ := other
      obtain ⟨rfl, read⟩ := read
      rw [List.forall_mem_cons] at ih
      obtain ⟨count, deep, strings, finite⟩ := ih.1 read
      obtain ⟨counts, deeper, rest, finites⟩ := ihRest ih.2
      simp only [JsonValue.exactMembers, ExactTree.items, ExactTree.itemsMembers, ExactTree.depth, ExactTree.depthMembers,
        ExactTree.Strings, ExactTree.StringsMembers] at counts deeper rest count deep strings ⊢
      exact ⟨by omega, by rw [deep, deeper], fun test => and_congr_right fun _ => and_congr (strings test) (rest test),
        finite, finites⟩

/-- A value whose numbers come back from their tokens comes back. -/
theorem convert_exact {value : JsonValue} {ints : Int → Prop} {floats : UInt64 → Prop}
    (int : ∀ n, ints n → number (JsonValue.intToken n) = .ok (.int n))
    (float : ∀ bits, floats bits → number (interpreter.floatToken bits) = .ok (.float bits))
    (numbers : value.Numbers ints floats) : convert number (value.exact interpreter) = .ok value := by
  induction value using JsonValue.induct with
  | null => rfl
  | bool value => rfl
  | int value => exact int value numbers
  | float bits => exact float bits numbers
  | str value => rfl
  | list items ih =>
    rw [JsonValue.Numbers, JsonValue.numbersAll_iff] at numbers
    rw [JsonValue.exact, JsonValue.exactAll_eq, convert_array_iff]
    refine ⟨items, rfl, ?_⟩
    rw [List.forall₂_map_left_iff, List.forall₂_same]
    exact fun item member => ih item member (numbers item member)
  | dict members ih =>
    rw [JsonValue.Numbers, JsonValue.numbersMembers_iff] at numbers
    rw [JsonValue.exact, JsonValue.exactMembers_eq, convert_object_iff]
    refine ⟨members, rfl, ?_⟩
    rw [List.forall₂_map_left_iff, List.forall₂_same]
    exact fun member found => ⟨rfl, ih member found (numbers member found)⟩

end

/-- An integer comes back from its token. -/
theorem ordinaryNumber_int (n : Int) : ordinaryNumber checked (JsonValue.intToken n) = .ok (.int n) := by
  obtain ⟨integer, value⟩ := integerValue_signed n
  have read : (JsonValue.intToken n).toInt = .ok n := toInt_iff.mpr ⟨integer, value.symm⟩
  unfold ordinaryNumber
  rw [if_pos (show isInteger (JsonValue.intToken n).token = true from integer), read]
  rfl

/-- A value without floats comes back from its tokens. -/
theorem ordinary_exact {value : JsonValue} (integral : value.Numbers (fun _ => True) fun _ => False) :
    ordinary checked (value.exact interpreter) = .ok value :=
  convert_exact (fun n _ => ordinaryNumber_int n) (fun _ absurd => absurd.elim) integral

end

theorem isFinite_iff {bits : UInt64} : JsonValue.isFinite bits = true ↔ Binary64.magnitude bits < Binary64.infinity := by
  unfold JsonValue.isFinite Binary64.magnitude Binary64.infinity
  rw [decide_eq_true_iff]
  have bound := bits.toNat_lt
  omega

/-- A number that is converted without a loss: an integer token, or exactly a binary64
number whose exponent `Decimal` takes. -/
def ExactNumber.Representable (number : ExactNumber) : Prop :=
  isInteger number.token = true ∨
    number.InDecimalRange ∧ ∃ bits, JsonValue.isFinite bits = true ∧ Binary64.value bits = number.value

section
variable {number : ExactNumber} {checked : Bool}

/-- `to_float` takes exactly the numbers that are binary64 numbers. -/
theorem toFloat_iff : (∃ bits, number.toFloat = .ok bits) ↔
    number.InDecimalRange ∧ ∃ bits, JsonValue.isFinite bits = true ∧ Binary64.value bits = number.value := by
  unfold ExactNumber.toFloat
  constructor
  · rintro ⟨bits, passed⟩
    split at passed
    · rename_i holds
      exact ⟨holds.2.1, number.float, holds.1, holds.2.2⟩
    · cases passed
  · rintro ⟨range, bits, finite, same⟩
    obtain ⟨rounded, exactly⟩ := Binary64.value_ofDecimal (isFinite_iff.mp finite) same
    exact ⟨number.float, if_pos ⟨isFinite_iff.mpr rounded, range, exactly⟩⟩

theorem toFloat_settled (number : ExactNumber) : (∃ bits, number.toFloat = .ok bits) ∨ number.toFloat = .error .precision := by
  unfold ExactNumber.toFloat
  split
  · exact Or.inl ⟨_, rfl⟩
  · exact Or.inr rfl

theorem toInt_settled (number : ExactNumber) : (∃ n, number.toInt = .ok n) ∨ number.toInt = .error .precision := by
  unfold ExactNumber.toInt
  split
  · exact Or.inr rfl
  · exact Or.inl ⟨_, rfl⟩

theorem ordinaryNumber_settled (checked : Bool) (number : ExactNumber) :
    (∃ item, ordinaryNumber checked number = .ok item) ∨ ordinaryNumber checked number = .error .precision := by
  unfold ordinaryNumber
  split
  · rcases toInt_settled number with ⟨n, read⟩ | failed
    · exact Or.inl ⟨_, by rw [read]; rfl⟩
    · exact Or.inr (by rw [failed]; rfl)
  split
  · rcases toFloat_settled number with ⟨bits, read⟩ | failed
    · exact Or.inl ⟨_, by rw [read]; rfl⟩
    · exact Or.inr (by rw [failed]; rfl)
  split
  · exact Or.inl ⟨_, rfl⟩
  · exact Or.inr rfl

/-- Exactly the representable numbers pass the checked conversion. -/
theorem ordinaryNumber_checked : (∃ item, ordinaryNumber true number = .ok item) ↔ number.Representable := by
  unfold ordinaryNumber ExactNumber.Representable
  split
  · rename_i integer
    have read : number.toInt = .ok (integerValue number.token) := toInt_iff.mpr ⟨integer, rfl⟩
    exact ⟨fun _ => Or.inl integer, fun _ => ⟨.int (integerValue number.token), by rw [read]; rfl⟩⟩
  · rename_i other
    rw [if_pos rfl, ← toFloat_iff]
    constructor
    · rintro ⟨item, passed⟩
      rcases toFloat_settled number with read | failed
      · exact Or.inr read
      · rw [failed] at passed
        cases passed
    · rintro (integer | ⟨bits, read⟩)
      · exact absurd integer other
      · exact ⟨_, by rw [read]; rfl⟩

theorem ordinaryNumber_numeric : Numeric (ordinaryNumber checked) := by
  intro number item passed
  unfold ordinaryNumber at passed
  split at passed
  · rcases toInt_settled number with ⟨n, read⟩ | failed
    · rw [read] at passed
      cases passed
      exact Or.inl ⟨n, rfl⟩
    · rw [failed] at passed
      cases passed
  split at passed
  · unfold ExactNumber.toFloat at passed
    split at passed
    · rename_i holds
      cases passed
      exact Or.inr ⟨_, rfl, holds.1⟩
    · cases passed
  split at passed
  · rename_i finite
    cases passed
    exact Or.inr ⟨_, rfl, finite⟩
  · cases passed

end

section

/-- The digits of an integer token in mathematical terms: the last one counts ones. -/
def decimalValue (digits : Text) : Nat := Nat.ofDigits 10 (digits.reverse.map Decimal.value)

theorem read_eq_decimalValue (digits : Text) : Decimal.read digits = decimalValue digits := by
  unfold decimalValue
  induction digits using List.reverseRecOn with
  | nil => rfl
  | append_singleton front c ih =>
    rw [Decimal.read_append, Decimal.read_singleton, ih, List.length_singleton, List.reverse_append, List.reverse_singleton,
      List.singleton_append, List.map_cons, Nat.ofDigits_cons]
    push_cast
    omega

/-- An integer token but `-0` is the token of what it denotes. -/
theorem signed_integerValue {token : Text} (integer : isInteger token = true) (noMinusZero : token ≠ [0x2d, 0x30]) :
    Decimal.signed (integerValue token) = token := by
  obtain ⟨sign, digits, signed, proper, rfl⟩ := isInteger_iff.mp integer
  have numeral := Decimal.numeral_read proper
  rcases signed with rfl | rfl
  · have unsigned : afterSign (digits ++ []) = digits ++ [] := afterSign_integer proper
    rw [List.append_nil] at unsigned
    have plain : isNegative digits = false := by
      rw [← numeral]
      exact decide_eq_false (numeral_not_sign _).1
    rw [List.nil_append, integerValue, plain, if_neg (by decide), unsigned, Decimal.signed, if_neg (by omega), Int.natAbs_natCast, numeral]
  · have minus : isNegative ([0x2d] ++ digits) = true := rfl
    have rest : afterSign ([0x2d] ++ digits) = digits := rfl
    have positive : 0 < Decimal.read digits := by
      refine Nat.pos_of_ne_zero fun zero => noMinusZero ?_
      rw [zero] at numeral
      rw [← numeral]
      rfl
    rw [integerValue, minus, if_pos rfl, rest, Decimal.signed, if_pos (by omega), Int.natAbs_neg, Int.natAbs_natCast, numeral]
    rfl

/-- Every integer is written as a token that is read back, every integer token but `-0` is the one that is written for its
integer, and what is read is the decimal value of the digits. -/
theorem integer_tokens_exact :
    (∀ n : Int, ∃ number, ExactNumber.ofToken (integerToken n) = .ok number ∧ number.toInt = .ok n) ∧
      (∀ number : ExactNumber, isInteger number.token = true → number.token ≠ [0x2d, 0x30] →
        ∃ n, number.toInt = .ok n ∧ integerToken n = number.token) ∧
      ∀ number : ExactNumber, isInteger number.token = true → number.toInt =
        .ok (if isNegative number.token then -(decimalValue (afterSign number.token) : Int) else decimalValue (afterSign number.token)) := by
  refine ⟨fun n => ?_, fun number integer noMinusZero => ?_, fun number integer => ?_⟩
  · obtain ⟨integer, value⟩ := integerValue_signed n
    refine ⟨JsonValue.intToken n, ?_, toInt_iff.mpr ⟨integer, value.symm⟩⟩
    rw [integerToken_eq]
    exact dif_pos (JsonValue.intToken n).proper
  · refine ⟨integerValue number.token, toInt_iff.mpr ⟨integer, rfl⟩, ?_⟩
    rw [integerToken_eq, signed_integerValue integer noMinusZero]
  · rw [← read_eq_decimalValue]
    exact toInt_iff.mpr ⟨integer, rfl⟩

end

end Pytitect.Wire
