import Pytitect.Sync.Shapes
import Mathlib.Data.List.Lex

namespace Pytitect
open JsonText

/-- A `datetime` of Python: what its clock shows, and the offset from UTC in seconds if it has one. -/
structure ZonedDatetime where
  clock : Datetime
  utcoffset : Option Int
  deriving DecidableEq

/-- An instant, in UTC. -/
def ZonedDatetime.utc (clock : Datetime) : ZonedDatetime := ⟨clock, some 0⟩

/-- `YYYY-MM-DDTHH:MM:SS.sss` -/
def Datetime.stamp (d : Datetime) : Text :=
  Decimal.padded 4 d.year ++ 0x2d :: (Decimal.padded 2 d.month ++ 0x2d :: (Decimal.padded 2 d.day ++ 0x54 ::
    (Decimal.padded 2 d.hour ++ 0x3a :: (Decimal.padded 2 d.minute ++ 0x3a :: (Decimal.padded 2 d.second ++ 0x2e ::
      Decimal.padded 3 (d.microsecond / 1000))))))

def utcSuffix : Text := "+00:00".codePoints

/-- `value.isoformat(timespec="milliseconds")` of a value without an offset from UTC. -/
def Datetime.isoformat (d : Datetime) : Text := d.stamp ++ utcSuffix

/-- What the parsers take from the standard library: which characters `\d` matches, the ASCII digits among them, and
`datetime.fromisoformat`. It reads what `isoformat` writes, and may read more. -/
structure IsoLibrary where
  isDecimal : CodePoint → Bool
  fromisoformat : Text → Except PyError ZonedDatetime
  ascii : ∀ c, isDigit c = true → isDecimal c = true
  reads : ∀ d : Datetime, d.microsecond % 1000 = 0 → fromisoformat d.isoformat = .ok (.utc d)

/-- `text.replace(old, new)`, with how many characters are still to be skipped of what was replaced. -/
def replaceFrom (old new : Text) : Nat → Text → Text
  | _, [] => []
  | skipped + 1, _ :: rest => replaceFrom old new skipped rest
  | 0, c :: rest =>
    if old.isPrefixOf (c :: rest) then new ++ replaceFrom old new (old.length - 1) rest else c :: replaceFrom old new 0 rest

/-- What a regular expression asks of one character. -/
inductive PatternItem
  | decimal
  | sign (c : CodePoint)

/-- How a regular expression ends: `\Z`, or `$`, which also matches before a last line feed. -/
inductive PatternEnd
  | absolute
  | dollar

/-- `\d{4}-\d{2}-\d{2}T\d{2}:\d{2}:\d{2}\.\d{3}Z` -/
def timestampPattern : List PatternItem :=
  List.replicate 4 .decimal ++ .sign 0x2d :: (List.replicate 2 .decimal ++ .sign 0x2d :: (List.replicate 2 .decimal ++ .sign 0x54 ::
    (List.replicate 2 .decimal ++ .sign 0x3a :: (List.replicate 2 .decimal ++ .sign 0x3a :: (List.replicate 2 .decimal ++
      .sign 0x2e :: (List.replicate 3 .decimal ++ [.sign 0x5a]))))))

namespace IsoLibrary
variable (library : IsoLibrary)

def matchItem : PatternItem → CodePoint → Bool
  | .decimal, c => library.isDecimal c
  | .sign expected, c => c = expected

/-- What is left of a text behind the items. -/
def matchItems : List PatternItem → Text → Option Text
  | [], text => some text
  | _ :: _, [] => none
  | item :: items, c :: text => if library.matchItem item c then matchItems items text else none

/-- `pattern.fullmatch(text) is not None` -/
def fullmatch (pattern : List PatternItem) (ending : PatternEnd) (text : Text) : Bool :=
  match library.matchItems pattern text with
  | none => false
  | some rest =>
    match ending with
    | .absolute => rest = []
    | .dollar => (rest = [] || rest = [0x0a]) && rest = []

/-- `_wire_time` -/
def wireTime (value : ZonedDatetime) (name : String) : Except PyError Unit :=
  if value.utcoffset ≠ some 0 then .error (.valueError (name ++ " must be timezone-aware UTC"))
  else if value.clock.microsecond % 1000 ≠ 0 then .error (.valueError (name ++ " must have millisecond precision"))
  else .ok ()

def formatSyncTimestamp (value : ZonedDatetime) : Except PyError Text := do
  wireTime value "timestamp"
  return value.clock.stamp ++ [0x5a]

def parseSyncTimestamp (value : Text) : Except PyError ZonedDatetime :=
  if library.fullmatch timestampPattern .absolute value = false then
    .error (.valueError "timestamp must be RFC 3339 UTC with exactly three fractional digits")
  else
    match library.fromisoformat (value.dropLast ++ utcSuffix) with
    | .error (.valueError _) => .error (.valueError "timestamp is not a valid calendar instant")
    | .error error => .error error
    | .ok parsed => do
      wireTime parsed "timestamp"
      let formatted ← formatSyncTimestamp parsed
      if formatted ≠ value then .error (.valueError "timestamp is not an exact calendar representation") else .ok parsed

/-- `_require_millisecond_utc` -/
def requireMillisecondUtc (value : ZonedDatetime) : Except PyError Unit :=
  if value.utcoffset ≠ some 0 then .error (.valueError "message time must be timezone-aware UTC")
  else if value.clock.microsecond % 1000 ≠ 0 then .error (.valueError "message time must have millisecond precision")
  else .ok ()

def formatMessageTime (value : ZonedDatetime) : Except PyError Text := do
  requireMillisecondUtc value
  return replaceFrom utcSuffix [0x5a] 0 value.clock.isoformat

def parseMessageTime (value : Text) : Except PyError ZonedDatetime :=
  if library.fullmatch timestampPattern .dollar value = false then
    .error (.valueError "message time must be an RFC 3339 UTC timestamp in milliseconds")
  else do
    let parsed ← library.fromisoformat (value.dropLast ++ utcSuffix)
    requireMillisecondUtc parsed
    let formatted ← formatMessageTime parsed
    if formatted ≠ value then .error (.valueError "message time is not an exact calendar representation") else .ok parsed

end IsoLibrary

theorem Datetime.milliseconds_eq (d : Datetime) : d.milliseconds = d.stamp ++ [0x5a] := by
  simp only [Datetime.milliseconds, Datetime.stamp, List.append_assoc, List.cons_append]

/-- Every value is an instant of the calendar with two digits per field, and four for the year. -/
theorem Datetime.fields_small (d : Datetime) : d.year < 10 ^ 4 ∧ d.month < 10 ^ 2 ∧ d.day < 10 ^ 2 ∧ d.hour < 10 ^ 2 ∧
    d.minute < 10 ^ 2 ∧ d.second < 10 ^ 2 ∧ d.microsecond / 1000 < 10 ^ 3 := by
  obtain ⟨years, months, days, hours, minutes, seconds, microseconds⟩ := d.valid
  have longest : daysInMonth d.year d.month ≤ 31 := by
    unfold daysInMonth
    split
    · split <;> decide
    · split <;> decide
  refine ⟨?_, ?_, ?_, ?_, ?_, ?_, ?_⟩ <;> omega

section
variable {first second front back : Text} {width m n : Nat}

/-- Numerals of one width stand in the order of their numbers. -/
theorem padded_lt (small : m < 10 ^ width) (small' : n < 10 ^ width) :
    Decimal.padded width m ++ front < Decimal.padded width n ++ back ↔ m < n ∨ m = n ∧ front < back := by
  induction width generalizing m n front back with
  | zero =>
    have zero : m = 0 := by simpa using small
    have zero' : n = 0 := by simpa using small'
    rw [zero, zero']
    simp [Decimal.padded]
  | succ width ih =>
    rw [pow_succ] at small small'
    have digits : Decimal.digit (m % 10) < Decimal.digit (n % 10) ↔ m % 10 < n % 10 := by
      rw [Fin.lt_def, Decimal.digit_val _ (Nat.mod_lt _ (by decide)), Decimal.digit_val _ (Nat.mod_lt _ (by decide))]
      omega
    have same : Decimal.digit (m % 10) = Decimal.digit (n % 10) ↔ m % 10 = n % 10 := by
      rw [Fin.ext_iff, Decimal.digit_val _ (Nat.mod_lt _ (by decide)), Decimal.digit_val _ (Nat.mod_lt _ (by decide))]
      omega
    have later := @ih (Decimal.digit (m % 10) :: front) (Decimal.digit (n % 10) :: back) (m / 10) (n / 10) (by omega) (by omega)
    rw [Decimal.padded, Decimal.padded, List.append_assoc, List.append_assoc, List.singleton_append, List.singleton_append,
      later, List.cons_lt_cons_iff, digits, same]
    constructor
    · rintro (less | ⟨top, less | ⟨low, rest⟩⟩)
      · exact .inl (by omega)
      · exact .inl (by omega)
      · exact .inr ⟨by omega, rest⟩
    · rintro (less | ⟨rfl, rest⟩)
      · by_cases top : m / 10 < n / 10
        · exact .inl top
        · exact .inr ⟨by omega, .inl (by omega)⟩
      · exact .inr ⟨rfl, .inr ⟨rfl, rest⟩⟩

end

/-- Timestamps stand in the order of their instants. -/
theorem Datetime.milliseconds_lt {first second : Datetime} (whole : first.microsecond % 1000 = 0)
    (whole' : second.microsecond % 1000 = 0) : first.milliseconds < second.milliseconds ↔ first.before second = true := by
  obtain ⟨y, mo, d, h, mi, s, ms⟩ := first.fields_small
  obtain ⟨y', mo', d', h', mi', s', ms'⟩ := second.fields_small
  have last : first.microsecond < second.microsecond ↔ first.microsecond / 1000 < second.microsecond / 1000 := by omega
  unfold Datetime.milliseconds Datetime.before
  rw [decide_eq_true_iff]
  simp only [padded_lt y y', padded_lt mo mo', padded_lt d d', padded_lt h h', padded_lt mi mi', padded_lt s s', padded_lt ms ms',
    List.cons_lt_cons_iff, List.not_lt_nil, and_false, or_false, last]
  simp

section
variable {library : IsoLibrary} {items : List PatternItem} {rest text : Text} {width n : Nat}

theorem matchItems_padded : library.matchItems (List.replicate width .decimal ++ items) (Decimal.padded width n ++ rest) =
    library.matchItems items rest := by
  have digits := Decimal.padded_isDigit width n
  have length := Decimal.length_padded width n
  revert digits length
  generalize Decimal.padded width n = front
  intro digits length
  induction front generalizing width with
  | nil =>
    rw [← length]
    rfl
  | cons c front ih =>
    rw [List.forall_mem_cons] at digits
    rw [← length, List.length_cons, List.replicate_succ, List.cons_append, List.cons_append, IsoLibrary.matchItems]
    have matched : library.matchItem .decimal c = true := library.ascii c digits.1
    rw [if_pos matched]
    exact ih digits.2 rfl

theorem matchItems_sign {c : CodePoint} : library.matchItems (.sign c :: items) (c :: rest) = library.matchItems items rest := by
  have matched : library.matchItem (.sign c) c = true := decide_eq_true rfl
  rw [IsoLibrary.matchItems, if_pos matched]

/-- A timestamp matches the pattern, however the pattern ends. -/
theorem fullmatch_milliseconds (ending : PatternEnd) (d : Datetime) :
    library.fullmatch timestampPattern ending d.milliseconds = true := by
  have matched : library.matchItems timestampPattern d.milliseconds = some [] := by
    unfold timestampPattern Datetime.milliseconds
    rw [matchItems_padded, matchItems_sign, matchItems_padded, matchItems_sign, matchItems_padded, matchItems_sign,
      matchItems_padded, matchItems_sign, matchItems_padded, matchItems_sign, matchItems_padded, matchItems_sign,
      matchItems_padded, matchItems_sign]
    rfl
  unfold IsoLibrary.fullmatch
  rw [matched]
  cases ending with
  | absolute => rfl
  | dollar => rfl

/-- A timestamp has no sign of an offset in it. -/
theorem plus_notMem_stamp (d : Datetime) : 0x2b ∉ d.stamp := by
  have digits : ∀ width n, 0x2b ∉ Decimal.padded width n := by
    intro width n member
    exact absurd (Decimal.padded_isDigit width n _ member) (by decide)
  simp only [Datetime.stamp, List.mem_append, List.mem_cons, digits, false_or, not_or]
  decide

theorem replaceFrom_stamp {front : Text} (plain : 0x2b ∉ front) :
    replaceFrom utcSuffix [0x5a] 0 (front ++ utcSuffix) = front ++ [0x5a] := by
  induction front with
  | nil => rfl
  | cons c front ih =>
    have other : c ≠ 0x2b := fun same => plain (same ▸ List.mem_cons_self)
    have apart : utcSuffix.isPrefixOf (c :: (front ++ utcSuffix)) = false := by
      have first : utcSuffix = 0x2b :: "00:00".codePoints := rfl
      rw [first, List.isPrefixOf_cons_cons, beq_eq_false_iff_ne.mpr other.symm, Bool.false_and]
    rw [List.cons_append, replaceFrom, apart, if_neg (by decide), ih (List.not_mem_of_not_mem_cons plain), List.cons_append]

/-- What `isoformat` writes becomes a timestamp. -/
theorem replaceFrom_isoformat (d : Datetime) : replaceFrom utcSuffix [0x5a] 0 d.isoformat = d.milliseconds := by
  rw [Datetime.isoformat, replaceFrom_stamp (plus_notMem_stamp d), Datetime.milliseconds_eq]

end

namespace IsoLibrary
variable {library : IsoLibrary} {text : Text} {value : ZonedDatetime} {name : String}

/-- An instant in whole milliseconds. -/
def Precise (value : ZonedDatetime) : Prop := value.utcoffset = some 0 ∧ value.clock.microsecond % 1000 = 0

theorem wireTime_ok : wireTime value name = .ok () ↔ Precise value := by
  unfold wireTime Precise
  split
  · rename_i other
    exact ⟨fun absurd => (by cases absurd), fun precise => absurd precise.1 other⟩
  rename_i utc
  split
  · rename_i other
    exact ⟨fun absurd => (by cases absurd), fun precise => absurd precise.2 other⟩
  · rename_i whole
    exact ⟨fun _ => ⟨not_not.mp utc, not_not.mp whole⟩, fun _ => rfl⟩

theorem requireMillisecondUtc_ok : requireMillisecondUtc value = .ok () ↔ Precise value := by
  unfold requireMillisecondUtc Precise
  split
  · rename_i other
    exact ⟨fun absurd => (by cases absurd), fun precise => absurd precise.1 other⟩
  rename_i utc
  split
  · rename_i other
    exact ⟨fun absurd => (by cases absurd), fun precise => absurd precise.2 other⟩
  · rename_i whole
    exact ⟨fun _ => ⟨not_not.mp utc, not_not.mp whole⟩, fun _ => rfl⟩

theorem formatSyncTimestamp_ok : formatSyncTimestamp value = .ok text ↔ Precise value ∧ text = value.clock.milliseconds := by
  rw [formatSyncTimestamp, bind_ok_iff, ← Datetime.milliseconds_eq]
  constructor
  · rintro ⟨⟨⟩, precise, written⟩
    exact ⟨wireTime_ok.mp precise, (Except.ok.inj written).symm⟩
  · rintro ⟨precise, rfl⟩
    exact ⟨(), wireTime_ok.mpr precise, rfl⟩

theorem formatMessageTime_ok : formatMessageTime value = .ok text ↔ Precise value ∧ text = value.clock.milliseconds := by
  rw [formatMessageTime, bind_ok_iff, replaceFrom_isoformat]
  constructor
  · rintro ⟨⟨⟩, precise, written⟩
    exact ⟨requireMillisecondUtc_ok.mp precise, (Except.ok.inj written).symm⟩
  · rintro ⟨precise, rfl⟩
    exact ⟨(), requireMillisecondUtc_ok.mpr precise, rfl⟩

/-- The library reads a timestamp with its `Z` replaced. -/
theorem fromisoformat_milliseconds (precise : Precise value) :
    library.fromisoformat (value.clock.milliseconds.dropLast ++ utcSuffix) = .ok value := by
  obtain ⟨clock, utcoffset⟩ := value
  obtain ⟨utc, whole⟩ := precise
  have utc : utcoffset = some 0 := utc
  rw [utc, Datetime.milliseconds_eq, List.dropLast_concat]
  exact library.reads clock whole

theorem parseSyncTimestamp_ok : library.parseSyncTimestamp text = .ok value ↔ formatSyncTimestamp value = .ok text := by
  constructor
  · intro parsed
    unfold parseSyncTimestamp at parsed
    split at parsed
    · cases parsed
    split at parsed
    · cases parsed
    · cases parsed
    obtain ⟨⟨⟩, precise, parsed⟩ := bind_ok parsed
    obtain ⟨formatted, written, parsed⟩ := bind_ok parsed
    split at parsed
    · cases parsed
    rename_i same
    rw [← Except.ok.inj parsed, ← not_not.mp same]
    exact written
  · intro written
    obtain ⟨precise, rfl⟩ := formatSyncTimestamp_ok.mp written
    have matched : ¬(library.fullmatch timestampPattern .absolute value.clock.milliseconds = false) := by
      rw [fullmatch_milliseconds]
      decide
    unfold parseSyncTimestamp
    rw [if_neg matched, fromisoformat_milliseconds precise]
    dsimp only
    rw [wireTime_ok.mpr precise, written]
    exact if_neg (not_not_intro rfl)

theorem parseMessageTime_ok : library.parseMessageTime text = .ok value ↔ formatMessageTime value = .ok text := by
  constructor
  · intro parsed
    unfold parseMessageTime at parsed
    split at parsed
    · cases parsed
    obtain ⟨found, read, parsed⟩ := bind_ok parsed
    obtain ⟨⟨⟩, precise, parsed⟩ := bind_ok parsed
    obtain ⟨formatted, written, parsed⟩ := bind_ok parsed
    split at parsed
    · cases parsed
    rename_i same
    rw [← Except.ok.inj parsed, ← not_not.mp same]
    exact written
  · intro written
    obtain ⟨precise, rfl⟩ := formatMessageTime_ok.mp written
    have matched : ¬(library.fullmatch timestampPattern .dollar value.clock.milliseconds = false) := by
      rw [fullmatch_milliseconds]
      decide
    unfold parseMessageTime
    rw [if_neg matched, fromisoformat_milliseconds precise]
    change (requireMillisecondUtc value >>= _) = _
    rw [requireMillisecondUtc_ok.mpr precise]
    change (formatMessageTime value >>= _) = _
    rw [written]
    exact if_neg (not_not_intro rfl)

/-- Whatever else `fromisoformat` reads, the parsers accept what the model of documents accepts. -/
theorem parseSyncTimestamp_document {d : Datetime} :
    library.parseSyncTimestamp text = .ok (.utc d) ↔ Sync.parseSyncTimestamp text = .ok d := by
  rw [parseSyncTimestamp_ok, formatSyncTimestamp_ok, Sync.parseSyncTimestamp_iff]
  exact and_congr_left' (and_iff_right rfl)

end IsoLibrary

/-- A timestamp is read exactly from what it is written as. The two parsers and the two formatters agree, and the
timestamps that are accepted stand in the order of their instants. -/
theorem timestamps_canonical (library : IsoLibrary) (text : Text) (t : Datetime) :
    (library.parseSyncTimestamp text = .ok (.utc t) ↔ IsoLibrary.formatSyncTimestamp (.utc t) = .ok text) ∧
      (∀ value, library.parseMessageTime text = .ok value ↔ library.parseSyncTimestamp text = .ok value) ∧
      (∀ value : ZonedDatetime, IsoLibrary.formatMessageTime value = .ok text ↔ IsoLibrary.formatSyncTimestamp value = .ok text) ∧
      ∀ other value value', library.parseSyncTimestamp text = .ok value → library.parseSyncTimestamp other = .ok value' →
        (text < other ↔ value.clock.before value'.clock = true) := by
  have formats : ∀ value : ZonedDatetime,
      IsoLibrary.formatMessageTime value = .ok text ↔ IsoLibrary.formatSyncTimestamp value = .ok text := fun value => by
    rw [IsoLibrary.formatMessageTime_ok, IsoLibrary.formatSyncTimestamp_ok]
  refine ⟨IsoLibrary.parseSyncTimestamp_ok, fun value => ?_, formats, fun other value value' parsed parsed' => ?_⟩
  · rw [IsoLibrary.parseMessageTime_ok, IsoLibrary.parseSyncTimestamp_ok]
    exact formats value
  · obtain ⟨precise, rfl⟩ := IsoLibrary.formatSyncTimestamp_ok.mp (IsoLibrary.parseSyncTimestamp_ok.mp parsed)
    obtain ⟨precise', rfl⟩ := IsoLibrary.formatSyncTimestamp_ok.mp (IsoLibrary.parseSyncTimestamp_ok.mp parsed')
    exact Datetime.milliseconds_lt precise.2 precise'.2

end Pytitect
