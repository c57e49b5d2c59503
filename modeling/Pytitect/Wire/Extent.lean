import Pytitect.Wire.Grammar

namespace Pytitect.Wire
open JsonText Text

/-- No surrogate occurs. -/
def Plain (text : Text) : Prop := text.any CodePoint.isSurrogate = false

theorem Plain.of_suffix {before after : Text} (plain : Plain before) (suffix : after <:+ before) : Plain after := by
  obtain ⟨taken, rfl⟩ := suffix
  rw [Plain, List.any_append, Bool.or_eq_false_iff] at plain
  exact plain.2

theorem Plain.head {c : CodePoint} {rest : Text} (plain : Plain (c :: rest)) : c.isSurrogate = false := by
  rw [Plain, List.any_cons, Bool.or_eq_false_iff] at plain
  exact plain.1

theorem suffix_of_cons {c : CodePoint} {before after : Text} (suffix : c :: after <:+ before) : after <:+ before :=
  (List.suffix_cons c after).trans suffix

theorem length_utf8_le {before after : Text} (suffix : after <:+ before) : (utf8 after).length ≤ (utf8 before).length := by
  obtain ⟨taken, rfl⟩ := suffix
  rw [length_utf8_append]
  omega

theorem blank_suffix {before after : Text} (blank : Blank before after) : after <:+ before := by
  induction blank with
  | none => exact List.suffix_rfl
  | more _ _ ih => exact ih.trans (List.suffix_cons _ _)

theorem hexDigit_lt {c : CodePoint} {n : Nat} (found : hexDigit c = some n) : n < 16 := by
  unfold hexDigit at found
  split at found
  · rename_i digit
    have bounds := isDigit_bounds.mp digit
    cases found
    omega
  split at found
  · cases found
    omega
  split at found
  · cases found
    omega
  · cases found

theorem hexQuad_lt {a b c d : CodePoint} {code : Nat} (found : hexQuad a b c d = some code) : code < 0x10000 := by
  unfold hexQuad at found
  split at found
  · rename_i first second third fourth
    have bound := hexDigit_lt first
    have bound' := hexDigit_lt second
    have bound'' := hexDigit_lt third
    have bound''' := hexDigit_lt fourth
    cases found
    omega
  · cases found

theorem length_utf8_le_four (c : CodePoint) : c.utf8.length ≤ 4 := by
  unfold CodePoint.utf8
  dsimp only
  split
  · exact Nat.le_of_ble_eq_true rfl
  split
  · exact Nat.le_of_ble_eq_true rfl
  split
  · exact Nat.le_of_ble_eq_true rfl
  · exact Nat.le_of_ble_eq_true rfl

theorem length_hexLetter : ∀ n < 16, (hexLetter n).utf8.length = 1 := by decide

/-- An escape takes six bytes at most. -/
theorem length_escaped_le (c : CodePoint) : (utf8 (escaped c)).length ≤ 6 := by
  have two : ∀ letter : CodePoint, letter.val < 0x80 → (utf8 [backslash, letter]).length = 2 := by
    intro letter small
    have one : letter.utf8.length = 1 := by
      unfold CodePoint.utf8
      dsimp only
      rw [if_pos small]
      rfl
    rw [length_utf8_cons, length_utf8_cons, one]
    rfl
  unfold escaped
  split
  · exact (two _ (by decide)).trans_le (by decide)
  split
  · exact (two _ (by decide)).trans_le (by decide)
  split
  · exact (two _ (by decide)).trans_le (by decide)
  split
  · exact (two _ (by decide)).trans_le (by decide)
  split
  · exact (two _ (by decide)).trans_le (by decide)
  split
  · exact (two _ (by decide)).trans_le (by decide)
  split
  · exact (two _ (by decide)).trans_le (by decide)
  split
  · have high := length_hexLetter (c.val / 16) (by omega)
    have low := length_hexLetter (c.val % 16) (by omega)
    have head : (utf8 [backslash, 0x75, 0x30, 0x30]).length = 4 := rfl
    have split : [backslash, 0x75, 0x30, 0x30, hexLetter (c.val / 16), hexLetter (c.val % 16)] =
        [backslash, 0x75, 0x30, 0x30] ++ [hexLetter (c.val / 16), hexLetter (c.val % 16)] := rfl
    have nothing : (utf8 []).length = 0 := rfl
    rw [split, length_utf8_append, head, length_utf8_cons, length_utf8_cons, high, low, nothing]
  · have small := length_utf8_le_four c
    have nothing : (utf8 []).length = 0 := rfl
    rw [length_utf8_cons, nothing]
    omega

theorem escapes_short : ∀ entry ∈ escapes.items, (utf8 (escaped entry.2)).length ≤ 2 ∧ entry.2.isSurrogate = false := by
  have two : ∀ entry ∈ escapes.items, (utf8 (escaped entry.2)).length = 2 ∨ (utf8 (escaped entry.2)).length = 1 := by
    simp only [escapes, List.forall_mem_cons]
    exact ⟨Or.inl rfl, Or.inl rfl, Or.inr rfl, Or.inl rfl, Or.inl rfl, Or.inl rfl, Or.inl rfl, Or.inl rfl,
      fun entry absurd => by cases absurd⟩
  have scalar : ∀ entry ∈ escapes.items, entry.2.isSurrogate = false := by
    simp only [escapes, List.forall_mem_cons]
    exact ⟨rfl, rfl, rfl, rfl, rfl, rfl, rfl, rfl, fun entry absurd => by cases absurd⟩
  intro entry member
  have short := two entry member
  exact ⟨by omega, scalar entry member⟩

/-- What a production takes: its text goes before what follows, and it pays for the shortest text there is. -/
structure Takes (cost : Nat) (before after : Text) : Prop where
  suffix : after <:+ before
  paid : cost + (utf8 after).length ≤ (utf8 before).length

theorem Takes.blank {cost : Nat} {before start after : Text} (takes : Takes cost start after) (blank : Blank before start) :
    Takes cost before after := by
  have suffix := blank_suffix blank
  have longer := length_utf8_le suffix
  exact ⟨takes.suffix.trans suffix, takes.paid.trans longer⟩

/-- Some character was taken. -/
theorem Takes.shorter {cost : Nat} {before after : Text} (takes : Takes cost before after) (positive : 0 < cost) :
    after.length < before.length := by
  obtain ⟨taken, rfl⟩ := takes.suffix
  cases taken with
  | nil =>
    have paid := takes.paid
    rw [List.nil_append] at paid
    omega
  | cons c taken =>
    rw [List.length_append, List.length_cons]
    omega

theorem charText_takes {c : CodePoint} {before after : Text} (char : CharText c before after) :
    Takes (utf8 (escaped c)).length before after := by
  have six := length_escaped_le c
  cases char with
  | plain low notQuote notBackslash =>
    have same : escaped c = [c] := by
      unfold escaped
      rw [if_neg notQuote, if_neg notBackslash, if_neg (by omega), if_neg (by omega), if_neg (by omega), if_neg (by omega),
        if_neg (by omega), if_neg (by omega)]
    refine ⟨List.suffix_cons _ _, ?_⟩
    rw [same, ← length_utf8_append]
    exact le_rfl
  | @short letter _ _ found =>
    have two := (escapes_short _ (Dict.mem_items.mpr found)).1
    have positive := length_utf8_pos letter
    have slash := length_utf8_pos backslash
    refine ⟨⟨[backslash, letter], rfl⟩, ?_⟩
    rw [length_utf8_cons, length_utf8_cons]
    dsimp only at two
    omega
  | @unit d₁ d₂ d₃ d₄ code _ _ _ =>
    have slash := length_utf8_pos backslash
    have letter := length_utf8_pos 0x75
    have p₁ := length_utf8_pos d₁
    have p₂ := length_utf8_pos d₂
    have p₃ := length_utf8_pos d₃
    have p₄ := length_utf8_pos d₄
    refine ⟨⟨[backslash, 0x75, d₁, d₂, d₃, d₄], rfl⟩, ?_⟩
    simp only [length_utf8_cons]
    omega
  | @pair d₁ d₂ d₃ d₄ e₁ e₂ e₃ e₄ high low _ _ _ _ _ =>
    have slash := length_utf8_pos backslash
    have letter := length_utf8_pos 0x75
    have p₁ := length_utf8_pos d₁
    have p₂ := length_utf8_pos d₂
    have p₃ := length_utf8_pos d₃
    have p₄ := length_utf8_pos d₄
    refine ⟨⟨[backslash, 0x75, d₁, d₂, d₃, d₄, backslash, 0x75, e₁, e₂, e₃, e₄], rfl⟩, ?_⟩
    simp only [length_utf8_cons]
    omega

theorem charText_plain {c : CodePoint} {before after : Text} (char : CharText c before after) (plain : Plain before) :
    c.isSurrogate = false := by
  cases char with
  | plain _ _ _ => exact plain.head
  | short found => exact (escapes_short _ (Dict.mem_items.mpr found)).2
  | unit found scalar =>
    have bound := hexQuad_lt found
    exact Utf8Decoder.isSurrogate_ofNat (by omega) scalar
  | pair _ high _ low => exact Utf8Decoder.isSurrogate_ofNat (by omega) (by omega)

theorem characters_takes {text before after : Text} (characters : Characters text before after) :
    Takes ((utf8 (text.flatMap escaped)).length + 1) before after := by
  induction characters with
  | close =>
    have one := length_utf8_pos quote
    refine ⟨List.suffix_cons _ _, ?_⟩
    rw [List.flatMap_nil, length_utf8_cons]
    have nothing : (utf8 []).length = 0 := rfl
    omega
  | more char _ ih =>
    have first := charText_takes char
    have paid := first.paid
    have later := ih.paid
    refine ⟨ih.suffix.trans first.suffix, ?_⟩
    rw [List.flatMap_cons, length_utf8_append]
    omega

theorem characters_plain {text before after : Text} (characters : Characters text before after) (plain : Plain before) :
    Plain text := by
  induction characters with
  | close => rfl
  | more char _ ih =>
    have first := charText_plain char plain
    have later := ih (plain.of_suffix (charText_takes char).suffix)
    rw [Plain] at later
    rw [Plain, List.any_cons, first, later]
    rfl

theorem stringText_takes {text before after : Text} (string : StringText text before after) :
    Takes (utf8 (dumps text)).length before after := by
  obtain ⟨characters⟩ := string
  have inner := characters_takes characters
  have paid := inner.paid
  have one : (utf8 [quote]).length = 1 := rfl
  refine ⟨inner.suffix.trans (List.suffix_cons _ _), ?_⟩
  rw [dumps, length_utf8_cons, length_utf8_cons, length_utf8_append, one]
  omega

theorem stringText_plain {text before after : Text} (string : StringText text before after) (plain : Plain before) :
    Plain text := by
  obtain ⟨characters⟩ := string
  exact characters_plain characters (plain.of_suffix (List.suffix_cons _ _))

section
variable {β : Type} {Entry : β → Text → Text → Prop} {close : CodePoint} {entries : List β} {before after : Text}

/-- Entries pay for themselves and for the sign behind each. -/
theorem separated_takes {cost : β → Nat} (separated : Separated Entry close entries before after)
    (each : ∀ entry ∈ entries, ∀ start rest, Entry entry start rest → Takes (cost entry) start rest) :
    Takes (entries.map fun entry => cost entry + 1).sum before after := by
  induction separated with
  | last blank found closing =>
    rw [List.forall_mem_singleton] at each
    have first := (each _ _ found).blank blank
    have paid := first.paid
    have closed := blank_suffix closing
    have longer := length_utf8_le closed
    have one := length_utf8_pos close
    rw [length_utf8_cons] at longer
    refine ⟨(suffix_of_cons closed).trans first.suffix, ?_⟩
    rw [List.map_cons, List.map_nil, List.sum_cons, List.sum_nil]
    omega
  | more blank found separator _ ih =>
    rw [List.forall_mem_cons] at each
    have first := (each.1 _ _ found).blank blank
    have later := ih each.2
    have paid := first.paid
    have paidLater := later.paid
    have closed := blank_suffix separator
    have longer := length_utf8_le closed
    have one := length_utf8_pos comma
    rw [length_utf8_cons] at longer
    refine ⟨later.suffix.trans ((suffix_of_cons closed).trans first.suffix), ?_⟩
    rw [List.map_cons, List.sum_cons]
    omega

theorem separated_each {Good : β → Prop} {cost : β → Nat} (separated : Separated Entry close entries before after)
    (plain : Plain before)
    (each : ∀ entry ∈ entries, ∀ start rest, Entry entry start rest → Takes (cost entry) start rest)
    (good : ∀ entry ∈ entries, ∀ start rest, Entry entry start rest → Plain start → Good entry) :
    ∀ entry ∈ entries, Good entry := by
  induction separated with
  | last blank found _ =>
    rw [List.forall_mem_singleton] at good ⊢
    exact good _ _ found (plain.of_suffix (blank_suffix blank))
  | more blank found separator _ ih =>
    rw [List.forall_mem_cons] at each good ⊢
    have first := plain.of_suffix (blank_suffix blank)
    have taken := first.of_suffix (each.1 _ _ found).suffix
    have next := taken.of_suffix (suffix_of_cons (blank_suffix separator))
    exact ⟨good.1 _ _ found first, ih next each.2 good.2⟩

end

theorem memberText_takes {Value : ExactTree → Text → Text → Prop} {member : Text × ExactTree} {before after : Text}
    (found : MemberText Value member before after)
    (value : ∀ start rest, Value member.2 start rest → Takes (weight member.2) start rest) :
    Takes ((utf8 (dumps member.1)).length + 1 + weight member.2) before after := by
  cases found with
  | pair key separator blank there =>
    have first := stringText_takes key
    have paid := first.paid
    have between := blank_suffix separator
    have longer := length_utf8_le between
    have one := length_utf8_pos colon
    rw [length_utf8_cons] at longer
    have last := (value _ _ there).blank blank
    have paidLast := last.paid
    refine ⟨last.suffix.trans ((suffix_of_cons between).trans first.suffix), ?_⟩
    dsimp only at paidLast ⊢
    omega

/-- Every text of a value is at least as long as the text that a document writes. -/
theorem valueText_takes {tree : ExactTree} {before after : Text} (found : ValueText tree before after) :
    Takes (weight tree) before after := by
  induction tree using ExactTree.induct generalizing before after with
  | null =>
    cases found
    exact ⟨List.suffix_append _ _, by rw [length_utf8_append, weight]⟩
  | bool value =>
    cases found with
    | true => exact ⟨List.suffix_append _ _, by rw [length_utf8_append, weight]⟩
    | false => exact ⟨List.suffix_append _ _, by rw [length_utf8_append, weight]⟩
  | number value =>
    cases found
    exact ⟨List.suffix_append _ _, by rw [length_utf8_append, weight]⟩
  | str value =>
    cases found with
    | str string => exact stringText_takes string
  | array values ih =>
    have opening := length_utf8_pos openArray
    cases found with
    | emptyArray closing =>
      have closed := blank_suffix closing
      have longer := length_utf8_le closed
      have one := length_utf8_pos closeArray
      rw [length_utf8_cons] at longer
      refine ⟨(suffix_of_cons closed).trans (List.suffix_cons _ _), ?_⟩
      rw [weight, weightAll, length_utf8_cons]
      omega
    | array separated =>
      have inner := separated_takes separated fun value member start rest => ih value member
      have paid := inner.paid
      refine ⟨inner.suffix.trans (List.suffix_cons _ _), ?_⟩
      rw [weight, weightAll_eq, length_utf8_cons]
      have some : 1 ≤ (values.map fun value => weight value + 1).sum := by
        cases separated <;> rw [List.map_cons, List.sum_cons] <;> omega
      omega
  | object members ih =>
    have opening := length_utf8_pos openObject
    cases found with
    | emptyObject closing =>
      have closed := blank_suffix closing
      have longer := length_utf8_le closed
      have one := length_utf8_pos closeObject
      rw [length_utf8_cons] at longer
      refine ⟨(suffix_of_cons closed).trans (List.suffix_cons _ _), ?_⟩
      rw [weight, weightMembers, length_utf8_cons]
      omega
    | object separated =>
      have inner := separated_takes separated fun member found start rest there =>
        memberText_takes there fun start rest => ih member found
      have paid := inner.paid
      refine ⟨inner.suffix.trans (List.suffix_cons _ _), ?_⟩
      rw [weight, weightMembers_eq, length_utf8_cons]
      change 1 + max 1 (members.map fun member => (utf8 (dumps member.1)).length + 1 + weight member.2 + 1).sum + _ ≤ _
      have some : 1 ≤ (members.map fun member => (utf8 (dumps member.1)).length + 1 + weight member.2 + 1).sum := by
        cases separated <;> rw [List.map_cons, List.sum_cons] <;> omega
      omega

/-- The strings of a text without surrogates have none. -/
theorem valueText_plain {tree : ExactTree} {before after : Text} (found : ValueText tree before after)
    (plain : Plain before) : tree.Strings Plain := by
  induction tree using ExactTree.induct generalizing before after with
  | null => trivial
  | bool value => trivial
  | number value => trivial
  | str value =>
    cases found with
    | str string => exact stringText_plain string plain
  | array values ih =>
    rw [ExactTree.Strings, ExactTree.stringsAll_iff]
    cases found with
    | emptyArray _ => exact fun value absurd => by cases absurd
    | array separated =>
      exact separated_each separated (plain.of_suffix (List.suffix_cons _ _))
        (fun _ _ _ _ there => valueText_takes there) fun value member start rest there => ih value member there
  | object members ih =>
    rw [ExactTree.Strings, ExactTree.stringsMembers_iff]
    cases found with
    | emptyObject _ => exact fun value absurd => by cases absurd
    | object separated =>
      refine separated_each separated (plain.of_suffix (List.suffix_cons _ _))
        (fun _ _ _ _ there => memberText_takes there fun _ _ => valueText_takes) ?_
      rintro ⟨key, value⟩ member start rest (@⟨_, _, _, _, _, _, _, string, separator, blank, there⟩) clean
      have next := (clean.of_suffix (stringText_takes string).suffix).of_suffix (suffix_of_cons (blank_suffix separator))
      exact ⟨stringText_plain string clean, ih _ member there (next.of_suffix (blank_suffix blank))⟩

theorem plain_append {first second : Text} : Plain (first ++ second) ↔ Plain first ∧ Plain second := by
  rw [Plain, List.any_append, Bool.or_eq_false_iff]
  rfl

theorem plain_cons {c : CodePoint} {rest : Text} : Plain (c :: rest) ↔ c.isSurrogate = false ∧ Plain rest := by
  rw [Plain, List.any_cons, Bool.or_eq_false_iff]
  rfl

theorem plain_of_all {text : Text} (all : ∀ c ∈ text, c.isSurrogate = false) : Plain text := by
  rw [Plain, List.any_eq_false]
  exact fun c member => by rw [all c member]; decide

theorem hexLetter_scalar : ∀ n < 16, (hexLetter n).isSurrogate = false := by decide

theorem plain_escaped {c : CodePoint} (scalar : c.isSurrogate = false) : Plain (escaped c) := by
  unfold escaped
  repeat' split
  all_goals try rfl
  · have high := hexLetter_scalar (c.val / 16) (by omega)
    have low := hexLetter_scalar (c.val % 16) (by omega)
    exact plain_cons.mpr ⟨rfl, plain_cons.mpr ⟨rfl, plain_cons.mpr ⟨rfl, plain_cons.mpr ⟨rfl, plain_cons.mpr ⟨high,
      plain_cons.mpr ⟨low, rfl⟩⟩⟩⟩⟩⟩
  · exact plain_cons.mpr ⟨scalar, rfl⟩

theorem plain_dumps {text : Text} (plain : Plain text) : Plain (dumps text) := by
  refine plain_cons.mpr ⟨rfl, plain_append.mpr ⟨?_, rfl⟩⟩
  induction text with
  | nil => rfl
  | cons c rest ih =>
    rw [plain_cons] at plain
    rw [List.flatMap_cons]
    exact plain_append.mpr ⟨plain_escaped plain.1, ih plain.2⟩

theorem plain_separate {entries : List (List Text)} (all : ∀ entry ∈ entries, Plain entry.flatten) :
    Plain (separate entries).flatten := by
  induction entries with
  | nil => rfl
  | cons entry rest ih =>
    rw [List.forall_mem_cons] at all
    cases rest with
    | nil => exact all.1
    | cons next rest =>
      have unfolded : separate (entry :: next :: rest) = entry ++ [comma] :: separate (next :: rest) := rfl
      rw [unfolded, List.flatten_append, List.flatten_cons]
      exact plain_append.mpr ⟨all.1, plain_cons.mpr ⟨rfl, ih all.2⟩⟩

theorem number_scalar {c : CodePoint} (sign : isNumberSign c = true) : c.isSurrogate = false := by
  simp only [isNumberSign, Bool.or_eq_true, decide_eq_true_iff] at sign
  rcases sign with ((((digit | rfl) | rfl) | rfl) | rfl) | rfl
  · have bounds := isDigit_bounds.mp digit
    simp only [CodePoint.isSurrogate, Bool.and_eq_false_iff, decide_eq_false_iff_not]
    omega
  · rfl
  · rfl
  · rfl
  · rfl
  · rfl

theorem plain_rendered {tree : ExactTree} (strings : tree.Strings Plain) : Plain (rendered tree) := by
  unfold rendered
  induction tree using ExactTree.induct with
  | null => rfl
  | bool value => cases value <;> rfl
  | number value =>
    rw [pieces, List.flatten_singleton]
    exact plain_of_all fun c member => number_scalar (number_signs (isNumber_iff.mp value.proper) c member)
  | str value =>
    rw [pieces, List.flatten_singleton]
    exact plain_dumps strings
  | array values ih =>
    rw [ExactTree.Strings, ExactTree.stringsAll_iff] at strings
    rw [pieces, piecesAll_eq, List.flatten_cons, List.flatten_append, List.flatten_singleton]
    refine plain_append.mpr ⟨rfl, plain_append.mpr ⟨plain_separate ?_, rfl⟩⟩
    rw [List.forall_mem_map]
    exact fun value member => ih value member (strings value member)
  | object members ih =>
    rw [ExactTree.Strings, ExactTree.stringsMembers_iff] at strings
    rw [pieces_object, List.flatten_cons, List.flatten_append, List.flatten_singleton]
    refine plain_append.mpr ⟨rfl, plain_append.mpr ⟨plain_separate ?_, rfl⟩⟩
    rw [List.forall_mem_map]
    intro member found
    have there := mem_arranged.mp found
    rw [memberPieces, List.flatten_cons, List.flatten_cons]
    exact plain_append.mpr ⟨plain_dumps (strings member there).1, plain_cons.mpr ⟨rfl, ih member there (strings member there).2⟩⟩

end Pytitect.Wire
