import Pytitect.Wire.Completeness

namespace Pytitect.Wire
open JsonText

/-- The computation comes to an end. -/
def Settles {α : Type} (result : Except WireError α) : Prop := result ≠ .error .diverged

section
variable {α β : Type}

theorem settles_ok (value : α) : Settles (Except.ok value) := by
  intro absurd
  cases absurd

theorem settles_error {error : WireError} (other : error ≠ .diverged) : Settles (Except.error error : Except WireError α) := by
  intro same
  exact other (Except.error.inj same)

theorem settles_bind {first : Except WireError α} {next : α → Except WireError β} (settles : Settles first)
    (later : ∀ value, first = .ok value → Settles (next value)) : Settles (first >>= next) := by
  cases first with
  | error error => exact fun same => settles (congrArg Except.error (Except.error.inj same))
  | ok value => exact later value rfl

theorem settles_ite {condition : Prop} [Decidable condition] {first second : Except WireError α}
    (positive : condition → Settles first) (negative : ¬condition → Settles second) :
    Settles (if condition then first else second) := by
  by_cases holds : condition
  · rw [if_pos holds]
    exact positive holds
  · rw [if_neg holds]
    exact negative holds

end

section
variable {limits : Limits}

theorem charge_settles (depth count : Nat) : Settles (charge limits depth count) :=
  settles_ite (fun _ => settles_error (by decide)) fun _ => settles_ok _

theorem stringLimit_settles (value : Text) : Settles (stringLimit value limits) :=
  settles_ite (fun _ => settles_error (by decide)) fun _ =>
    settles_ite (fun _ => settles_error (by decide)) fun _ => settles_ok _

theorem visitAll_settles {values : List ExactTree} {depth count : Nat}
    (each : ∀ value ∈ values, ∀ depth count, Settles (visit limits value depth count)) :
    Settles (visitAll limits values depth count) := by
  induction values generalizing count with
  | nil => exact settles_ok _
  | cons value rest ih =>
    rw [List.forall_mem_cons] at each
    exact settles_bind (each.1 _ _) fun first _ => settles_bind (ih each.2) fun others _ => settles_ok _

theorem visitMembers_settles {members : List (Text × ExactTree)} {depth count : Nat} {result : Dict Text ExactTree}
    (each : ∀ member ∈ members, ∀ depth count, Settles (visit limits member.2 depth count)) :
    Settles (visitMembers limits members depth result count) := by
  induction members generalizing result count with
  | nil => exact settles_ok _
  | cons member rest ih =>
    rw [List.forall_mem_cons] at each
    exact settles_bind (stringLimit_settles _) fun _ _ => settles_bind (each.1 _ _) fun _ _ => ih each.2

theorem visit_settles (tree : ExactTree) (depth count : Nat) : Settles (visit limits tree depth count) := by
  induction tree using ExactTree.induct generalizing depth count with
  | null => exact settles_bind (charge_settles _ _) fun _ _ => settles_ok _
  | bool value => exact settles_bind (charge_settles _ _) fun _ _ => settles_ok _
  | number value => exact settles_bind (charge_settles _ _) fun _ _ => settles_ok _
  | str value =>
    exact settles_bind (charge_settles _ _) fun _ _ => settles_bind (stringLimit_settles _) fun _ _ => settles_ok _
  | array values ih =>
    exact settles_bind (charge_settles _ _) fun _ _ => settles_bind (visitAll_settles ih) fun _ _ => settles_ok _
  | object members ih =>
    exact settles_bind (charge_settles _ _) fun _ _ => settles_bind (visitMembers_settles ih) fun _ _ => settles_ok _

theorem encodeLoop_settles (output : List UInt8) (texts : List Text) : Settles (encodeLoop limits output texts) := by
  induction texts generalizing output with
  | nil => exact settles_ok _
  | cons piece rest ih =>
    refine settles_ite (fun _ => settles_error (by decide)) fun _ => ?_
    cases piece.encode with
    | none => exact settles_error (by decide)
    | some encoded => exact settles_ite (fun _ => settles_error (by decide)) fun _ => ih _

theorem make_settles (tree : ExactTree) : Settles (WireDocument.make tree limits) :=
  settles_bind (settles_bind (visit_settles tree 0 0) fun _ _ => settles_ok _) fun _ _ =>
    settles_bind (encodeLoop_settles _ _) fun _ _ => settles_ok _

end

section
variable {ending : Ending} {limits : Limits} (fair : ending ≠ .failed .diverged)
include fair

theorem take_settles (rest : Text) : Settles (take ending rest) := by
  cases rest with
  | cons c tail => exact settles_ok _
  | nil =>
    cases ending with
    | finished => exact settles_ok _
    | failed error => exact settles_error fun same => fair (congrArg _ same)

theorem peek_settles (rest : Text) : Settles (peek ending rest) :=
  settles_bind (take_settles fair rest) fun _ _ => settles_ok _

theorem whitespace_settles (rest : Text) : Settles (whitespace ending rest) := by
  induction rest with
  | nil => exact settles_bind (peek_settles fair []) fun _ _ => settles_ok _
  | cons c tail ih => exact settles_ite (fun _ => ih) fun _ => settles_ok _

theorem require_settles (expected : CodePoint) (rest : Text) : Settles (require ending expected rest) :=
  settles_bind (take_settles fair rest) fun _ _ => settles_ite (fun _ => settles_ok _) fun _ => settles_error (by decide)

theorem requireAll_settles (expected rest : Text) : Settles (requireAll ending expected rest) := by
  induction expected generalizing rest with
  | nil => exact settles_ok _
  | cons c more ih => exact settles_bind (require_settles fair c rest) fun _ _ => ih _

theorem readHexQuad_settles (rest : Text) : Settles (readHexQuad ending rest) := by
  refine settles_bind (take_settles fair _) fun first _ => settles_bind (take_settles fair _) fun second _ =>
    settles_bind (take_settles fair _) fun third _ => settles_bind (take_settles fair _) fun fourth _ => ?_
  dsimp only
  split
  · split <;> first | exact settles_ok _ | exact settles_error (by decide)
  · exact settles_error (by decide)

theorem readEscape_settles (rest : Text) : Settles (readEscape ending rest) := by
  refine settles_bind (take_settles fair _) fun _ _ => settles_ite (fun _ => ?_) fun _ => ?_
  · refine settles_bind (readHexQuad_settles fair _) fun _ _ => settles_ite (fun _ => ?_) fun _ => ?_
    · exact settles_bind (require_settles fair _ _) fun _ _ => settles_bind (require_settles fair _ _) fun _ _ =>
        settles_bind (readHexQuad_settles fair _) fun _ _ =>
          settles_ite (fun _ => settles_ok _) fun _ => settles_error (by decide)
    · exact settles_ite (fun _ => settles_error (by decide)) fun _ => settles_ok _
  · split
    · exact settles_ok _
    · exact settles_error (by decide)

theorem readCharacter_settles (rest : Text) : Settles (readCharacter ending rest) := by
  refine settles_bind (take_settles fair _) ?_
  rintro ⟨next, tail⟩ _
  cases next with
  | none => exact settles_error (by decide)
  | some c =>
    exact settles_ite (fun _ => settles_ok _) fun _ => settles_ite (fun _ => settles_error (by decide)) fun _ =>
      settles_ite (fun _ => settles_bind (readEscape_settles fair _) fun _ _ => settles_ok _) fun _ => settles_ok _

/-- Every turn of the loop takes a character. -/
theorem stringLoop_settles {fuel : Nat} {characters rest : Text} (enough : rest.length < fuel) :
    Settles (stringLoop ending limits fuel characters rest) := by
  induction fuel generalizing characters rest with
  | zero => omega
  | succ fuel ih =>
    refine settles_bind (readCharacter_settles fair rest) ?_
    rintro ⟨found, tail⟩ read
    rcases readCharacter_ok read with ⟨rfl, -⟩ | ⟨c, rfl, char⟩
    · exact settles_ok _
    · have shorter := charText_shorter char
      exact settles_ite (fun _ => settles_error (by decide)) fun _ => ih (by omega)

theorem readString_settles (rest : Text) : Settles (readString ending limits rest) :=
  settles_bind (require_settles fair quote rest) fun _ _ => stringLoop_settles fair (Nat.lt_succ_self _)

theorem readNumber_settles (rest : Text) : Settles (readNumber ending rest) := by
  induction rest with
  | nil => exact settles_bind (peek_settles fair []) fun _ _ => settles_ok _
  | cons c tail ih => exact settles_ite (fun _ => settles_bind ih fun _ _ => settles_ok _) fun _ => settles_ok _

section
variable {σ : Type} {close : CodePoint} {add : σ → Reading → Except WireError (σ × Reading)}
  (adding : ∀ found reading, Settles (add found reading))
  (shrinks : ∀ found found' before after, add found before = .ok (found', after) → after.rest.length ≤ before.rest.length)
include adding shrinks

/-- Every turn of the loop but the last takes a comma. -/
theorem entriesLoop_settles {fuel : Nat} {found : σ} {reading : Reading} (enough : reading.rest.length < fuel) :
    Settles (entriesLoop ending close add fuel found reading) := by
  induction fuel generalizing found reading with
  | zero => omega
  | succ fuel ih =>
    refine settles_bind (adding found reading) ?_
    rintro ⟨found', after⟩ added
    have shorter := shrinks _ _ _ _ added
    refine settles_bind (whitespace_settles fair _) fun rest spaced => settles_bind (peek_settles fair _) fun _ _ => ?_
    refine settles_ite (fun _ => settles_ok _) fun _ => ?_
    refine settles_bind (require_settles fair _ _) fun next separator => ?_
    refine settles_bind (whitespace_settles fair _) fun last spaced' => ih ?_
    have skipped := (blank_suffix (whitespace_ok spaced)).length_le
    have skipped' := (blank_suffix (whitespace_ok spaced')).length_le
    rw [require_ok separator, List.length_cons] at skipped
    dsimp only at skipped ⊢
    omega

theorem enclosed_settles (empty : σ) (reading : Reading) : Settles (enclosed ending close add empty reading) := by
  refine settles_bind (take_settles fair _) fun _ _ => settles_bind (whitespace_settles fair _) fun _ _ =>
    settles_bind (peek_settles fair _) fun _ _ => settles_bind ?_ fun _ _ =>
      settles_bind (require_settles fair _ _) fun _ _ => settles_ok _
  exact settles_ite (fun _ => settles_ok _) fun _ => entriesLoop_settles fair adding shrinks (Nat.lt_succ_self _)

end

section
variable {value : Reading → Except WireError (ExactTree × Reading)} {depth : Nat}

omit fair in
theorem addElement_shrinks (reads : ReadsValues limits depth value) {found found' : List ExactTree} {before after : Reading}
    (added : addElement value found before = .ok (found', after)) : after.rest.length ≤ before.rest.length := by
  obtain ⟨source, start, -, blank, there, -, -⟩ := addElement_adds reads _ _ _ _ added
  exact ((valueText_takes there).blank blank).suffix.length_le

omit fair in
theorem addMember_shrinks (reads : ReadsValues limits depth value) {found found' : Dict Text ExactTree}
    {before after : Reading} (added : addMember ending limits value found before = .ok (found', after)) :
    after.rest.length ≤ before.rest.length := by
  obtain ⟨source, start, -, blank, there, -, -⟩ := addMember_adds reads _ _ _ _ added
  exact ((memberText_takes there fun _ _ => valueText_takes).blank blank).suffix.length_le

theorem readFirst_settles (reads : ReadsValues limits depth value) (settles : ∀ reading, Settles (value reading))
    (c : CodePoint) (rest : Text) (count : Nat) : Settles (readFirst ending limits value c rest count) := by
  have members : ∀ found reading, Settles (addMember ending limits value found reading) := fun found reading =>
    settles_bind (readString_settles fair _) fun _ _ => settles_bind (whitespace_settles fair _) fun _ _ =>
      settles_bind (require_settles fair _ _) fun _ _ => settles_bind (settles _) fun _ _ => settles_ok _
  have elements : ∀ found reading, Settles (addElement value found reading) := fun found reading =>
    settles_bind (settles _) fun _ _ => settles_ok _
  refine settles_ite (fun _ => settles_bind (readString_settles fair _) fun _ _ => settles_ok _) fun _ => ?_
  refine settles_ite (fun _ => settles_bind (enclosed_settles fair members
    (fun _ _ _ _ => addMember_shrinks reads) _ _) fun _ _ => settles_ok _) fun _ => ?_
  refine settles_ite (fun _ => settles_bind (enclosed_settles fair elements
    (fun _ _ _ _ => addElement_shrinks reads) _ _) fun _ _ => settles_ok _) fun _ => ?_
  refine settles_ite (fun _ => settles_bind (requireAll_settles fair _ _) fun _ _ => settles_ok _) fun _ => ?_
  refine settles_ite (fun _ => settles_bind (requireAll_settles fair _ _) fun _ _ => settles_ok _) fun _ => ?_
  refine settles_ite (fun _ => settles_bind (requireAll_settles fair _ _) fun _ _ => settles_ok _) fun _ => ?_
  refine settles_ite (fun _ => settles_bind (readNumber_settles fair _) fun taken _ => settles_bind ?_ fun _ _ => settles_ok _)
    fun _ => settles_error (by decide)
  unfold ExactNumber.ofToken
  split
  · exact settles_ok _
  · exact settles_error (by decide)

end

/-- A value deeper than the limit is refused before the fuel runs out. -/
theorem readValue_settles {fuel depth : Nat} (enough : limits.maxJsonDepth + 1 < fuel + depth) (some : 0 < fuel)
    (reading : Reading) : Settles (readValue ending limits fuel depth reading) := by
  induction fuel generalizing depth reading with
  | zero => omega
  | succ fuel ih =>
    refine settles_bind (charge_settles _ _) fun _ charged => ?_
    obtain ⟨-, -, deep⟩ := charge_ok charged
    refine settles_bind (whitespace_settles fair _) fun _ _ => settles_bind (peek_settles fair _) fun first _ => ?_
    cases first with
    | none => exact settles_error (by decide)
    | some c => exact readFirst_settles fair (readValue_ok fuel (depth + 1)) (ih (by omega) (by omega)) c _ _

theorem parseStream_settles (text : Text) : Settles (parseStream limits text ending) :=
  settles_bind (readValue_settles fair (by omega) (by omega) _) fun _ _ => settles_bind (whitespace_settles fair _) fun _ _ =>
    settles_bind (peek_settles fair _) fun _ _ => settles_ite (fun _ => settles_error (by decide)) fun _ => make_settles _

end

theorem decodeChunks_fair (maximum : Nat) (decoder : Utf8Decoder) (size : Nat) (chunks : List (List UInt8)) :
    (decodeChunks maximum decoder size chunks).2 ≠ .failed .diverged := by
  induction chunks generalizing decoder size with
  | nil =>
    rw [decodeChunks]
    by_cases idle : decoder = .idle
    · rw [if_pos idle]
      decide
    · rw [if_neg idle]
      decide
  | cons chunk rest ih =>
    rw [decodeChunks]
    by_cases long : maximum < size + chunk.length
    · rw [if_pos long]
      decide
    rw [if_neg long]
    split
    · decide
    · exact ih _ _

theorem decodeWireStream_settles (chunks : List (List UInt8)) (limits : Limits) :
    Settles (decodeWireStream chunks limits) := by
  have fair := decodeChunks_fair limits.maxBodyBytes .idle 0 chunks
  have parsed : Settles (parseStream limits (decodeChunks limits.maxBodyBytes .idle 0 chunks).1
      (decodeChunks limits.maxBodyBytes .idle 0 chunks).2) := parseStream_settles fair _
  unfold decodeWireStream
  dsimp only
  split
  · exact settles_error (by decide)
  · exact parsed

end Pytitect.Wire
