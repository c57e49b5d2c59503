import Pytitect.Wire.Soundness

namespace Pytitect.Wire
open JsonText

theorem peek_finished (rest : Text) : peek .finished rest = .ok rest.head? := by
  cases rest with
  | nil => rfl
  | cons c tail => rfl

theorem require_cons {ending : Ending} (c : CodePoint) (rest : Text) : require ending c (c :: rest) = .ok rest := by
  change (if some c = some c then Except.ok rest else Except.error WireError.malformed) = _
  rw [if_pos rfl]

theorem requireAll_append {ending : Ending} (expected rest : Text) : requireAll ending expected (expected ++ rest) = .ok rest := by
  induction expected with
  | nil => rfl
  | cons c more ih =>
    rw [List.cons_append, requireAll, require_cons]
    exact ih

/-- Blanks are passed over. -/
theorem whitespace_blank {before after : Text} (blank : Blank before after) :
    whitespace .finished before = whitespace .finished after := by
  induction blank with
  | none => rfl
  | more blank _ ih => rw [whitespace, if_pos blank, ih]

theorem whitespace_stops {ending : Ending} {c : CodePoint} (rest : Text) (other : isBlank c = false) :
    whitespace ending (c :: rest) = .ok (c :: rest) := by
  rw [whitespace, if_neg (by rw [other]; decide)]

theorem whitespace_to {before rest : Text} {c : CodePoint} (blank : Blank before (c :: rest)) (other : isBlank c = false) :
    whitespace .finished before = .ok (c :: rest) := by
  rw [whitespace_blank blank, whitespace_stops rest other]

theorem whitespace_end {before : Text} (blank : Blank before []) : whitespace .finished before = .ok [] :=
  (whitespace_blank blank).trans rfl

section
variable {ending : Ending} {limits : Limits}

@[simp] theorem take_cons (c : CodePoint) (rest : Text) : take ending (c :: rest) = .ok (some c, rest) := rfl

theorem readHexQuad_reads {a b c d : CodePoint} {code : Nat} (rest : Text) (found : hexQuad a b c d = some code) :
    readHexQuad ending (a :: b :: c :: d :: rest) = .ok (code, rest) := by
  simp only [readHexQuad, take_cons, bind, Except.bind, found]

theorem readCharacter_reads {c : CodePoint} {before after : Text} (char : CharText c before after) :
    readCharacter ending before = .ok (some c, after) := by
  cases char with
  | plain control notQuote notSlash =>
    change (if c = quote then Except.ok (none, after)
      else if c.val < 0x20 then Except.error WireError.malformed
      else if c = backslash then readEscape ending after >>= fun read => Except.ok (some read.1, read.2)
      else Except.ok (some c, after)) = _
    rw [if_neg notQuote, if_neg (Nat.not_lt.mpr control), if_neg notSlash]
  | @short letter _ _ known =>
    have single : letter ≠ 0x75 := by
      rintro rfl
      have unknown : escapes.get? 0x75 = none := by decide
      rw [unknown] at known
      cases known
    have read : readEscape ending (letter :: after) = .ok (c, after) := by
      simp only [readEscape, take_cons, bind, Except.bind, Option.some.injEq, if_neg single, Option.bind, known]
    change (readEscape ending (letter :: after) >>= fun read => Except.ok (some read.1, read.2)) = _
    rw [read]
    rfl
  | @unit d₁ d₂ d₃ d₄ code _ found scalar =>
    have read : readEscape ending (0x75 :: d₁ :: d₂ :: d₃ :: d₄ :: after) = .ok (Fin.ofNat 0x110000 code, after) := by
      change (readHexQuad ending (d₁ :: d₂ :: d₃ :: d₄ :: after) >>= _) = _
      rw [readHexQuad_reads after found]
      change (if 0xd800 ≤ code ∧ code ≤ 0xdbff then _ else if 0xdc00 ≤ code ∧ code ≤ 0xdfff then _ else _) = _
      rw [if_neg (by omega), if_neg (by omega)]
    change (readEscape ending (0x75 :: d₁ :: d₂ :: d₃ :: d₄ :: after) >>= fun read => Except.ok (some read.1, read.2)) = _
    rw [read]
    rfl
  | @pair d₁ d₂ d₃ d₄ e₁ e₂ e₃ e₄ high low _ found surrogate found' trail =>
    have read : readEscape ending
        (0x75 :: d₁ :: d₂ :: d₃ :: d₄ :: backslash :: 0x75 :: e₁ :: e₂ :: e₃ :: e₄ :: after) =
          .ok (Fin.ofNat 0x110000 (0x10000 + (high - 0xd800) * 0x400 + low - 0xdc00), after) := by
      change (readHexQuad ending (d₁ :: d₂ :: d₃ :: d₄ :: _) >>= _) = _
      rw [readHexQuad_reads _ found]
      change (if 0xd800 ≤ high ∧ high ≤ 0xdbff then _ else _) = _
      rw [if_pos surrogate]
      change (readHexQuad ending (e₁ :: e₂ :: e₃ :: e₄ :: after) >>= _) = _
      rw [readHexQuad_reads after found']
      change (if 0xdc00 ≤ low ∧ low ≤ 0xdfff then _ else _) = _
      rw [if_pos trail]
    change (readEscape ending
      (0x75 :: d₁ :: d₂ :: d₃ :: d₄ :: backslash :: 0x75 :: e₁ :: e₂ :: e₃ :: e₄ :: after) >>=
        fun read => Except.ok (some read.1, read.2)) = _
    rw [read]
    rfl

theorem stringLoop_reads {text before after : Text} (found : Characters text before after) {fuel : Nat} {characters : Text}
    (enough : text.length < fuel) (short : characters.length + text.length ≤ limits.maxStringLength) :
    stringLoop ending limits fuel characters before = .ok (characters ++ text, after) := by
  induction found generalizing fuel characters with
  | close =>
    cases fuel with
    | zero => omega
    | succ fuel =>
      rw [List.append_nil]
      rfl
  | @more c text before middle after char _ ih =>
    rw [List.length_cons] at enough short
    cases fuel with
    | zero => omega
    | succ fuel =>
      rw [stringLoop, readCharacter_reads char]
      change (if limits.maxStringLength ≤ characters.length then _ else stringLoop ending limits fuel (characters ++ [c]) middle) = _
      have room : (characters ++ [c]).length + text.length ≤ limits.maxStringLength := by
        rw [List.length_append, List.length_singleton]
        omega
      rw [if_neg (by omega), ih (by omega) room, List.append_assoc, List.singleton_append]

theorem charText_shorter {c : CodePoint} {before after : Text} (char : CharText c before after) :
    after.length < before.length := by
  cases char with
  | plain _ _ _ =>
    rw [List.length_cons]
    omega
  | short _ =>
    rw [List.length_cons, List.length_cons]
    omega
  | unit _ _ =>
    simp only [List.length_cons]
    omega
  | pair _ _ _ _ =>
    simp only [List.length_cons]
    omega

theorem characters_length {text before after : Text} (found : Characters text before after) :
    text.length < before.length := by
  induction found with
  | close => exact Nat.succ_pos _
  | more char _ ih =>
    have shorter := charText_shorter char
    rw [List.length_cons]
    omega

theorem readString_reads {text before after : Text} (found : StringText text before after)
    (short : text.length ≤ limits.maxStringLength) : readString ending limits before = .ok (text, after) := by
  obtain ⟨characters⟩ := found
  rename_i inner
  have long := characters_length characters
  have read : stringLoop ending limits (inner.length + 1) [] inner = .ok ([] ++ text, after) :=
    stringLoop_reads characters (by omega) (by rw [List.length_nil]; omega)
  rw [readString, require_cons]
  exact read

end

/-- No number goes on here. -/
def Stops (rest : Text) : Prop := ∀ c tail, rest = c :: tail → isNumberSign c = false

theorem stops_nil : Stops [] := by
  intro c tail absurd
  cases absurd

theorem stops_cons {c : CodePoint} {tail : Text} (other : isNumberSign c = false) : Stops (c :: tail) := by
  intro d rest same
  cases same
  exact other

theorem sign_not_blank {c : CodePoint} (blank : isBlank c = true) : isNumberSign c = false := by
  simp only [isBlank, Bool.or_eq_true, decide_eq_true_iff] at blank
  have all : ∀ d : CodePoint, d.val = c.val → d = c := fun d same => Fin.ext same
  rcases blank with ((at_ | at_) | at_) | at_
  · rw [← all 0x20 at_.symm]
    rfl
  · rw [← all 0x09 at_.symm]
    rfl
  · rw [← all 0x0d at_.symm]
    rfl
  · rw [← all 0x0a at_.symm]
    rfl

theorem stops_blank {before after : Text} (blank : Blank before after) (stops : Stops after) : Stops before := by
  cases blank with
  | none => exact stops
  | more first _ => exact stops_cons (sign_not_blank first)

theorem readNumber_reads {token after : Text} (signs : ∀ c ∈ token, isNumberSign c = true) (stops : Stops after) :
    readNumber .finished (token ++ after) = .ok (token, after) := by
  induction token with
  | nil =>
    cases after with
    | nil => rfl
    | cons c tail =>
      have other := stops c tail rfl
      rw [List.nil_append, readNumber, if_neg (by rw [other]; decide)]
  | cons c token ih =>
    rw [List.forall_mem_cons] at signs
    rw [List.cons_append, readNumber, if_pos signs.1, ih signs.2]
    rfl

section
variable {σ β : Type} {limits : Limits} {close : CodePoint} {add : σ → Reading → Except WireError (σ × Reading)}
  {put : σ → β → σ} {Entry : β → Text → Text → Prop} {cost : β → Nat} {entries : List β} {outer after : Text}

/-- An entry begins with a character that is neither a blank nor the closing bracket, and takes some. -/
def Begins (Entry : β → Text → Text → Prop) (close : CodePoint) (entry : β) : Prop :=
  ∀ start rest, Entry entry start rest →
    rest.length < start.length ∧ ∃ c tail, start = c :: tail ∧ isBlank c = false ∧ c ≠ close

/-- `add` reads this entry wherever it stands, as long as the count has room. -/
def Succeeds (limits : Limits) (add : σ → Reading → Except WireError (σ × Reading)) (put : σ → β → σ)
    (Entry : β → Text → Text → Prop) (cost : β → Nat) (entry : β) : Prop :=
  ∀ found start rest count, Entry entry start rest → Stops rest → count + cost entry ≤ limits.maxJsonItems →
    add found ⟨start, count⟩ = .ok (put found entry, ⟨rest, count + cost entry⟩)

theorem entriesLoop_reads (separated : Separated Entry close entries outer after)
    (closes : isBlank close = false ∧ isNumberSign close = false ∧ close ≠ comma)
    (begins : ∀ entry ∈ entries, Begins Entry close entry)
    (succeeds : ∀ entry ∈ entries, Succeeds limits add put Entry cost entry) :
    ∃ start c tail, Blank outer start ∧ start = c :: tail ∧ isBlank c = false ∧ c ≠ close ∧ entries.length ≤ start.length ∧
      ∀ fuel found count, entries.length < fuel → count + (entries.map cost).sum ≤ limits.maxJsonItems →
        entriesLoop .finished close add fuel found ⟨start, count⟩ =
          .ok (entries.foldl put found, ⟨close :: after, count + (entries.map cost).sum⟩) := by
  induction separated with
  | @last entry before start middle after blank there closing =>
    rw [List.forall_mem_singleton] at begins succeeds
    obtain ⟨shorter, c, tail, begin, other, different⟩ := begins start middle there
    refine ⟨start, c, tail, blank, begin, other, different, ?_, ?_⟩
    · rw [List.length_singleton]
      omega
    intro fuel found count enough room
    rw [List.map_cons, List.map_nil, List.sum_cons, List.sum_nil] at room ⊢
    cases fuel with
    | zero => omega
    | succ fuel =>
      have added := succeeds found start middle count there (stops_blank closing (stops_cons closes.2.1)) room
      rw [entriesLoop, added]
      change (whitespace .finished middle >>= _) = _
      rw [whitespace_to closing closes.1]
      change (if some close = some close then
        Except.ok (put found entry, (⟨close :: after, count + cost entry⟩ : Reading)) else _) = _
      rw [if_pos rfl]
      rfl
  | @more entry entries before start middle next after blank there separator _ ih =>
    rw [List.forall_mem_cons] at begins succeeds
    obtain ⟨shorter, c, tail, begin, other, different⟩ := begins.1 start middle there
    obtain ⟨start', c', tail', blank', begin', other', -, long, loop⟩ := ih begins.2 succeeds.2
    have down := (blank_suffix separator).length_le
    have down' := (blank_suffix blank').length_le
    rw [List.length_cons] at down
    refine ⟨start, c, tail, blank, begin, other, different, ?_, ?_⟩
    · rw [List.length_cons]
      omega
    intro fuel found count enough room
    rw [List.length_cons] at enough
    rw [List.map_cons, List.sum_cons] at room ⊢
    cases fuel with
    | zero => omega
    | succ fuel =>
      have added := succeeds.1 found start middle count there (stops_blank separator (stops_cons rfl)) (by omega)
      have later := loop fuel (put found entry) (count + cost entry) (by omega) (by omega)
      have open_ : comma ≠ close := fun same => closes.2.2 same.symm
      subst begin'
      rw [entriesLoop, added]
      change (whitespace .finished middle >>= _) = _
      rw [whitespace_to separator rfl]
      change (if some comma = some close then _ else require .finished comma (comma :: next) >>= _) = _
      rw [if_neg fun same => open_ (Option.some.inj same), require_cons]
      change (whitespace .finished next >>= _) = _
      rw [whitespace_to blank' other']
      rw [← Nat.add_assoc]
      exact later

theorem enclosed_reads (separated : Separated Entry close entries outer after)
    (closes : isBlank close = false ∧ isNumberSign close = false ∧ close ≠ comma)
    (begins : ∀ entry ∈ entries, Begins Entry close entry)
    (succeeds : ∀ entry ∈ entries, Succeeds limits add put Entry cost entry) (opening : CodePoint) (empty : σ) {count : Nat}
    (room : count + (entries.map cost).sum ≤ limits.maxJsonItems) :
    enclosed .finished close add empty ⟨opening :: outer, count⟩ =
      .ok (entries.foldl put empty, ⟨after, count + (entries.map cost).sum⟩) := by
  obtain ⟨start, c, tail, blank, begin, other, different, long, loop⟩ :=
    entriesLoop_reads separated closes begins succeeds
  have looped := loop (start.length + 1) empty count (by omega) room
  subst begin
  change (whitespace .finished outer >>= _) = _
  rw [whitespace_to blank other]
  change ((if some c = some close then _ else entriesLoop .finished close add ((c :: tail).length + 1) empty ⟨c :: tail, count⟩)
    >>= _) = _
  rw [if_neg fun same => different (Option.some.inj same), looped]
  change (require .finished close (close :: after) >>= _) = _
  rw [require_cons]
  rfl

theorem enclosed_empty (closing : Blank outer (close :: after)) (closes : isBlank close = false) (opening : CodePoint)
    (empty : σ) (count : Nat) :
    enclosed .finished close add empty ⟨opening :: outer, count⟩ = .ok (empty, ⟨after, count⟩) := by
  change (whitespace .finished outer >>= _) = _
  rw [whitespace_to closing closes]
  change ((if some close = some close then Except.ok (empty, (⟨close :: after, count⟩ : Reading)) else _) >>= _) = _
  rw [if_pos rfl]
  change (require .finished close (close :: after) >>= _) = _
  rw [require_cons]
  rfl

end

/-- What can stand at the beginning of a value. -/
theorem valueText_begins {tree : ExactTree} {start after : Text} (found : ValueText tree start after) :
    ∃ c tail, start = c :: tail ∧ isBlank c = false ∧ c ≠ closeArray := by
  cases found with
  | null => exact ⟨_, _, rfl, rfl, by decide⟩
  | true => exact ⟨_, _, rfl, rfl, by decide⟩
  | false => exact ⟨_, _, rfl, rfl, by decide⟩
  | number number =>
    obtain ⟨c, tail, same, first⟩ := number_head number
    rw [same]
    refine ⟨c, tail ++ after, rfl, ?_, ?_⟩
    · cases blank : isBlank c with
      | false => rfl
      | true =>
        have sign := sign_not_blank blank
        rcases first with rfl | digit
        · cases sign
        · rw [sign_of_digit digit] at sign
          cases sign
    · rcases first with rfl | digit
      · decide
      · rintro rfl
        cases digit
  | str string =>
    obtain ⟨_⟩ := string
    exact ⟨_, _, rfl, rfl, by decide⟩
  | emptyArray _ => exact ⟨_, _, rfl, rfl, by decide⟩
  | array _ => exact ⟨_, _, rfl, rfl, by decide⟩
  | emptyObject _ => exact ⟨_, _, rfl, rfl, by decide⟩
  | object _ => exact ⟨_, _, rfl, rfl, by decide⟩

theorem weight_pos (tree : ExactTree) : 0 < weight tree := by
  cases tree with
  | null => exact Nat.succ_pos _
  | bool value => cases value <;> exact Nat.succ_pos _
  | number value =>
    obtain ⟨c, tail, same, -⟩ := number_head (isNumber_iff.mp value.proper)
    have long := Text.length_le_utf8 value.token
    rw [same, List.length_cons] at long
    rw [weight, same]
    omega
  | str value =>
    rw [weight, dumps, Text.length_utf8_cons]
    have one := Text.length_utf8_pos quote
    omega
  | array values =>
    rw [weight]
    omega
  | object members =>
    rw [weight]
    omega

theorem element_begins (tree : ExactTree) : Begins ValueText closeArray tree := fun _ _ found =>
  ⟨(valueText_takes found).shorter (weight_pos tree), valueText_begins found⟩

theorem member_begins (member : Text × ExactTree) : Begins (MemberText ValueText) closeObject member := by
  intro start rest found
  refine ⟨(memberText_takes found fun _ _ => valueText_takes).shorter (by omega), ?_⟩
  obtain @⟨_, _, _, _, _, _, _, string, _, _, _⟩ := found
  obtain ⟨_⟩ := string
  exact ⟨_, _, rfl, rfl, by decide⟩

section
variable {limits : Limits} {value : Reading → Except WireError (ExactTree × Reading)}

/-- `value` reads this tree, after blanks or none. -/
def ReadsTree (limits : Limits) (value : Reading → Except WireError (ExactTree × Reading)) (tree : ExactTree) : Prop :=
  ∀ before start rest count, Blank before start → ValueText tree start rest → Stops rest →
    count + tree.items ≤ limits.maxJsonItems → value ⟨before, count⟩ = .ok (tree.denote, ⟨rest, count + tree.items⟩)

theorem element_succeeds {tree : ExactTree} (reads : ReadsTree limits value tree) :
    Succeeds limits (addElement value) (fun sequence source => sequence ++ [source.denote]) ValueText ExactTree.items
      tree := by
  intro found start rest count there stops room
  rw [addElement, reads start start rest count .none there stops room]
  rfl

theorem member_succeeds {member : Text × ExactTree} (short : member.1.length ≤ limits.maxStringLength)
    (reads : ReadsTree limits value member.2) :
    Succeeds limits (addMember .finished limits value) (fun mapping member => mapping.set member.1 member.2.denote)
      (MemberText ValueText) (fun member => member.2.items) member := by
  intro found start rest count there stops room
  cases there with
  | pair string separator blank there =>
    rw [addMember, readString_reads string short]
    change (whitespace .finished _ >>= _) = _
    rw [whitespace_to separator rfl]
    change (require .finished colon (colon :: _) >>= _) = _
    rw [require_cons]
    change (value ⟨_, count⟩ >>= _) = _
    rw [reads _ _ rest count blank there stops room]
    rfl

end

theorem readValue_first {limits : Limits} {fuel depth count : Nat} {before tail : Text} {c : CodePoint}
    (blank : Blank before (c :: tail)) (other : isBlank c = false) (items : count + 1 ≤ limits.maxJsonItems)
    (deep : depth ≤ limits.maxJsonDepth) :
    readValue .finished limits (fuel + 1) depth ⟨before, count⟩ =
      readFirst .finished limits (readValue .finished limits fuel (depth + 1)) c (c :: tail) (count + 1) := by
  rw [readValue, charge_passes items deep]
  change (whitespace .finished before >>= _) = _
  rw [whitespace_to blank other]
  rfl

/-- `readFirst` reads every text of a tree that has no values inside. -/
def ReadsScalar (limits : Limits) (tree : ExactTree) : Prop :=
  ∀ start rest, ValueText tree start rest → Stops rest → ∃ c tail, start = c :: tail ∧ isBlank c = false ∧
    ∀ value count, readFirst .finished limits value c (c :: tail) count = .ok (tree, ⟨rest, count⟩)

section
variable {limits : Limits}

theorem readsScalar_null : ReadsScalar limits .null := by
  intro start rest found _
  cases found
  refine ⟨_, _, rfl, rfl, fun value count => ?_⟩
  change (requireAll .finished nullWord (nullWord ++ rest) >>= _) = _
  rw [requireAll_append]
  rfl

theorem readsScalar_bool (value : Bool) : ReadsScalar limits (.bool value) := by
  intro start rest found _
  cases found with
  | true =>
    refine ⟨_, _, rfl, rfl, fun value count => ?_⟩
    change (requireAll .finished trueWord (trueWord ++ rest) >>= _) = _
    rw [requireAll_append]
    rfl
  | false =>
    refine ⟨_, _, rfl, rfl, fun value count => ?_⟩
    change (requireAll .finished falseWord (falseWord ++ rest) >>= _) = _
    rw [requireAll_append]
    rfl

theorem readsScalar_number (number : ExactNumber) : ReadsScalar limits (.number number) := by
  intro start rest found stops
  obtain ⟨d, tail', same, other, -⟩ := valueText_begins found
  cases found
  have proper := isNumber_iff.mp number.proper
  obtain ⟨c, tail, begin, first⟩ := number_head proper
  have read := readNumber_reads (number_signs proper) stops
  have made : ExactNumber.ofToken number.token = .ok number := dif_pos number.proper
  rw [begin, List.cons_append] at read same
  cases same
  refine ⟨d, tail ++ rest, by rw [begin]; rfl, other, fun value count => ?_⟩
  have apart : ∀ e : CodePoint, (e = 0x2d ∨ isDigit e = true → False) → d ≠ e := by
    rintro e different rfl
    exact different first
  unfold readFirst
  rw [if_neg (apart _ (by decide)), if_neg (apart _ (by decide)), if_neg (apart _ (by decide)),
    if_neg (apart _ (by decide)), if_neg (apart _ (by decide)), if_neg (apart _ (by decide)), if_pos first, read, ← begin]
  change (ExactNumber.ofToken number.token >>= _) = _
  rw [made]
  rfl

theorem readsScalar_str {text : Text} (short : text.length ≤ limits.maxStringLength) : ReadsScalar limits (.str text) := by
  intro start rest found _
  cases found with
  | str string =>
    have read : readString .finished limits start = .ok (text, rest) := readString_reads string short
    obtain ⟨_⟩ := string
    refine ⟨_, _, rfl, rfl, fun value count => ?_⟩
    unfold readFirst
    rw [if_pos rfl, read]
    rfl

theorem readsScalar_reads {tree : ExactTree} {fuel depth : Nat} (reads : ReadsScalar limits tree)
    (flat : tree.denote = tree ∧ tree.items = 1) (enough : tree.depth < fuel) (bounded : Bounded limits tree depth) :
    ReadsTree limits (readValue .finished limits fuel depth) tree := by
  intro before start rest count blank found stops items
  have deep := bounded.depth
  obtain ⟨c, tail, rfl, other, read⟩ := reads start rest found stops
  obtain ⟨fuel, rfl⟩ : ∃ less, fuel = less + 1 := ⟨fuel - 1, by omega⟩
  rw [flat.2] at items ⊢
  rw [readValue_first blank other items (by omega), read, flat.1]

theorem array_reads {values : List ExactTree} {fuel depth : Nat}
    (reads : ∀ value ∈ values, ReadsTree limits (readValue .finished limits fuel (depth + 1)) value)
    (deep : depth ≤ limits.maxJsonDepth) :
    ReadsTree limits (readValue .finished limits (fuel + 1) depth) (.array values) := by
  intro before start rest count blank found stops items
  rw [ExactTree.items] at items ⊢
  rw [ExactTree.denote]
  cases found with
  | emptyArray closing =>
    rw [readValue_first blank rfl (by omega) deep]
    change (enclosed .finished closeArray _ [] ⟨openArray :: _, count + 1⟩ >>= _) = _
    rw [enclosed_empty closing rfl]
    rfl
  | array separated =>
    rw [ExactTree.itemsAll_eq] at items ⊢
    have body := enclosed_reads separated ⟨rfl, rfl, by decide⟩ (fun value _ => element_begins value)
      (fun value member => element_succeeds (reads value member)) openArray [] (by omega :
        count + 1 + (values.map ExactTree.items).sum ≤ limits.maxJsonItems)
    rw [foldl_elements, List.nil_append, Nat.add_assoc] at body
    rw [readValue_first blank rfl (by omega) deep]
    change (enclosed .finished closeArray _ [] ⟨openArray :: _, count + 1⟩ >>= _) = _
    rw [body]
    rfl

theorem object_reads {members : List (Text × ExactTree)} {fuel depth : Nat}
    (reads : ∀ member ∈ members, member.1.length ≤ limits.maxStringLength ∧
      ReadsTree limits (readValue .finished limits fuel (depth + 1)) member.2)
    (deep : depth ≤ limits.maxJsonDepth) :
    ReadsTree limits (readValue .finished limits (fuel + 1) depth) (.object members) := by
  intro before start rest count blank found stops items
  rw [ExactTree.items] at items ⊢
  rw [ExactTree.denote]
  cases found with
  | emptyObject closing =>
    rw [readValue_first blank rfl (by omega) deep]
    change (enclosed .finished closeObject _ Dict.empty ⟨openObject :: _, count + 1⟩ >>= _) = _
    rw [enclosed_empty closing rfl]
    rfl
  | object separated =>
    rw [ExactTree.itemsMembers_eq] at items ⊢
    have body := enclosed_reads separated ⟨rfl, rfl, by decide⟩ (fun member _ => member_begins member)
      (fun member found => member_succeeds (reads member found).1 (reads member found).2) openObject Dict.empty (by omega :
        count + 1 + (members.map fun member => member.2.items).sum ≤ limits.maxJsonItems)
    rw [foldl_members, Nat.add_assoc] at body
    rw [readValue_first blank rfl (by omega) deep]
    change (enclosed .finished closeObject _ Dict.empty ⟨openObject :: _, count + 1⟩ >>= _) = _
    rw [body]
    rfl

end

/-- Whatever the grammar derives within the limits is read. -/
theorem readValue_reads {limits : Limits} {tree : ExactTree} {fuel depth : Nat} (enough : tree.depth < fuel)
    (bounded : Bounded limits tree depth) : ReadsTree limits (readValue .finished limits fuel depth) tree := by
  induction tree using ExactTree.induct generalizing fuel depth with
  | null => exact readsScalar_reads readsScalar_null ⟨rfl, rfl⟩ enough bounded
  | bool value => exact readsScalar_reads (readsScalar_bool value) ⟨rfl, rfl⟩ enough bounded
  | number value => exact readsScalar_reads (readsScalar_number value) ⟨rfl, rfl⟩ enough bounded
  | str value => exact readsScalar_reads (readsScalar_str bounded.strings) ⟨rfl, rfl⟩ enough bounded
  | array values ih =>
    obtain ⟨deep, strings⟩ := bounded
    rw [ExactTree.depth] at deep enough
    rw [ExactTree.Strings, ExactTree.stringsAll_iff] at strings
    have below := ExactTree.depthAll_le.mp (le_refl (ExactTree.depthAll values))
    obtain ⟨fuel, rfl⟩ : ∃ less, fuel = less + 1 := ⟨fuel - 1, by omega⟩
    refine array_reads (fun value member => ?_) (by omega)
    have inner := below value member
    exact ih value member (by omega) ⟨by omega, strings value member⟩
  | object members ih =>
    obtain ⟨deep, strings⟩ := bounded
    rw [ExactTree.depth] at deep enough
    rw [ExactTree.Strings, ExactTree.stringsMembers_iff] at strings
    have below := ExactTree.depthMembers_le.mp (le_refl (ExactTree.depthMembers members))
    obtain ⟨fuel, rfl⟩ : ∃ less, fuel = less + 1 := ⟨fuel - 1, by omega⟩
    refine object_reads (fun member found => ⟨(strings member found).1, ?_⟩) (by omega)
    have inner := below member found
    exact ih member found (by omega) ⟨by omega, (strings member found).2⟩

end Pytitect.Wire
