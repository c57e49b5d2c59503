import Pytitect.Wire.Parser

namespace Pytitect.Wire
open JsonText

section
variable {ending : Ending} {limits : Limits}

theorem take_ok {rest after : Text} {next : Option CodePoint} (taken : take ending rest = .ok (next, after)) :
    (∃ c, next = some c ∧ rest = c :: after) ∨ next = none ∧ rest = [] ∧ after = [] ∧ ending = .finished := by
  cases rest with
  | cons c tail =>
    cases taken
    exact Or.inl ⟨c, rfl, rfl⟩
  | nil =>
    cases ending with
    | finished =>
      cases taken
      exact Or.inr ⟨rfl, rfl, rfl, rfl⟩
    | failed error => cases taken

theorem take_some {rest after : Text} {c : CodePoint} (taken : take ending rest = .ok (some c, after)) :
    rest = c :: after := by
  rcases take_ok taken with ⟨d, same, split⟩ | ⟨absurd, -⟩
  · cases same
    exact split
  · cases absurd

theorem peek_ok {rest : Text} {next : Option CodePoint} (seen : peek ending rest = .ok next) :
    (∃ c tail, next = some c ∧ rest = c :: tail) ∨ next = none ∧ rest = [] ∧ ending = .finished := by
  obtain ⟨⟨found, after⟩, taken, same⟩ := bind_ok seen
  cases same
  rcases take_ok taken with ⟨c, rfl, rfl⟩ | ⟨rfl, rfl, -, ended⟩
  · exact Or.inl ⟨c, after, rfl, rfl⟩
  · exact Or.inr ⟨rfl, rfl, ended⟩

theorem peek_some {rest : Text} {c : CodePoint} (seen : peek ending rest = .ok (some c)) : ∃ tail, rest = c :: tail := by
  rcases peek_ok seen with ⟨d, tail, same, split⟩ | ⟨absurd, -⟩
  · cases same
    exact ⟨tail, split⟩
  · cases absurd

theorem whitespace_ok {rest after : Text} (passed : whitespace ending rest = .ok after) : Blank rest after := by
  induction rest with
  | nil =>
    obtain ⟨next, -, same⟩ := bind_ok passed
    cases same
    exact .none
  | cons c tail ih =>
    rw [whitespace] at passed
    split at passed
    · rename_i blank
      exact .more blank (ih passed)
    · cases passed
      exact .none

theorem require_ok {expected : CodePoint} {rest after : Text} (passed : require ending expected rest = .ok after) :
    rest = expected :: after := by
  obtain ⟨⟨next, tail⟩, taken, passed⟩ := bind_ok passed
  dsimp only at passed
  split at passed
  · rename_i same
    cases passed
    exact take_some (same ▸ taken)
  · cases passed

theorem requireAll_ok {expected rest after : Text} (passed : requireAll ending expected rest = .ok after) :
    rest = expected ++ after := by
  induction expected generalizing rest with
  | nil =>
    cases passed
    rfl
  | cons c more ih =>
    obtain ⟨tail, first, passed⟩ := bind_ok passed
    rw [require_ok first, ih passed]
    rfl

theorem readHexQuad_ok {rest after : Text} {code : Nat} (read : readHexQuad ending rest = .ok (code, after)) :
    ∃ a b c d, rest = a :: b :: c :: d :: after ∧ hexQuad a b c d = some code := by
  obtain ⟨⟨first, rest₁⟩, taken₁, read⟩ := bind_ok read
  obtain ⟨⟨second, rest₂⟩, taken₂, read⟩ := bind_ok read
  obtain ⟨⟨third, rest₃⟩, taken₃, read⟩ := bind_ok read
  obtain ⟨⟨fourth, rest₄⟩, taken₄, read⟩ := bind_ok read
  dsimp only at taken₂ taken₃ taken₄ read
  split at read
  · split at read
    · rename_i found
      cases read
      rw [take_some taken₁, take_some taken₂, take_some taken₃, take_some taken₄]
      exact ⟨_, _, _, _, rfl, found⟩
    · cases read
  · cases read

theorem readEscape_ok {rest after : Text} {c : CodePoint} (read : readEscape ending rest = .ok (c, after)) :
    CharText c (backslash :: rest) after := by
  obtain ⟨⟨letter, tail⟩, taken, read⟩ := bind_ok read
  dsimp only at read
  split at read
  · rename_i unit
    subst unit
    rw [take_some taken]
    obtain ⟨⟨code, rest₁⟩, quad, read⟩ := bind_ok read
    obtain ⟨d₁, d₂, d₃, d₄, same, found⟩ := readHexQuad_ok quad
    rw [same]
    dsimp only at read
    split at read
    · rename_i high
      obtain ⟨rest₂, slash, read⟩ := bind_ok read
      obtain ⟨rest₃, letter', read⟩ := bind_ok read
      obtain ⟨⟨low, rest₄⟩, quad', read⟩ := bind_ok read
      obtain ⟨e₁, e₂, e₃, e₄, same', found'⟩ := readHexQuad_ok quad'
      dsimp only at read
      split at read
      · rename_i below
        obtain ⟨rfl, rfl⟩ := Prod.mk.inj (Except.ok.inj read)
        rw [require_ok slash, require_ok letter', same']
        exact .pair found high found' below
      · cases read
    split at read
    · cases read
    · rename_i notHigh notLow
      cases read
      exact .unit found (by omega)
  · split at read
    · rename_i found
      obtain ⟨name, rfl, known⟩ := Option.bind_eq_some_iff.mp found
      cases read
      rw [take_some taken]
      exact .short known
    · cases read

theorem readCharacter_ok {rest after : Text} {found : Option CodePoint}
    (read : readCharacter ending rest = .ok (found, after)) :
    found = none ∧ rest = quote :: after ∨ ∃ c, found = some c ∧ CharText c rest after := by
  obtain ⟨⟨next, tail⟩, taken, read⟩ := bind_ok read
  dsimp only at read
  split at read
  · cases read
  rename_i c
  rw [take_some taken]
  split at read
  · rename_i ended
    cases read
    exact Or.inl ⟨rfl, by rw [ended]⟩
  rename_i notQuote
  split at read
  · cases read
  rename_i notControl
  split at read
  · rename_i slash
    obtain ⟨⟨d, rest₁⟩, escape, read⟩ := bind_ok read
    cases read
    rw [slash]
    exact Or.inr ⟨d, rfl, readEscape_ok escape⟩
  · rename_i notSlash
    cases read
    exact Or.inr ⟨c, rfl, .plain (Nat.not_lt.mp notControl) notQuote notSlash⟩

theorem stringLoop_ok {fuel : Nat} {characters rest text after : Text}
    (read : stringLoop ending limits fuel characters rest = .ok (text, after)) :
    ∃ more, text = characters ++ more ∧ Characters more rest after ∧
      (characters.length ≤ limits.maxStringLength → text.length ≤ limits.maxStringLength) := by
  induction fuel generalizing characters rest with
  | zero => cases read
  | succ fuel ih =>
    obtain ⟨⟨found, tail⟩, character, read⟩ := bind_ok read
    rcases readCharacter_ok character with ⟨rfl, rfl⟩ | ⟨c, rfl, char⟩
    · cases read
      exact ⟨[], (List.append_nil _).symm, .close, id⟩
    · dsimp only at read
      split at read
      · cases read
      · rename_i room
        obtain ⟨more, rfl, later, bound⟩ := ih read
        refine ⟨c :: more, by rw [List.append_assoc]; rfl, .more char later, fun _ => bound ?_⟩
        rw [List.length_append, List.length_singleton]
        omega

theorem readString_ok {rest text after : Text} (read : readString ending limits rest = .ok (text, after)) :
    StringText text rest after ∧ text.length ≤ limits.maxStringLength := by
  obtain ⟨tail, opening, read⟩ := bind_ok read
  obtain ⟨more, rfl, characters, bound⟩ := stringLoop_ok read
  rw [require_ok opening]
  exact ⟨.quoted characters, bound (Nat.zero_le _)⟩

theorem readNumber_ok {rest token after : Text} (read : readNumber ending rest = .ok (token, after)) :
    rest = token ++ after := by
  induction rest generalizing token with
  | nil =>
    obtain ⟨next, -, same⟩ := bind_ok read
    cases same
    rfl
  | cons c tail ih =>
    rw [readNumber] at read
    split at read
    · obtain ⟨⟨more, last⟩, later, read⟩ := bind_ok read
      cases read
      rw [ih later]
      rfl
    · cases read
      rfl

theorem ofToken_ok {token : Text} {number : ExactNumber} (made : ExactNumber.ofToken token = .ok number) :
    number.token = token := by
  unfold ExactNumber.ofToken at made
  split at made
  · cases made
    rfl
  · cases made

/-- What it is to read one entry that is charged `cost` values. -/
structure Reads (limits : Limits) (cost : Nat) (before after : Reading) : Prop where
  charged : after.count = before.count + cost
  paid : after.count ≤ limits.maxJsonItems

section
variable {σ β : Type} {close : CodePoint} {add : σ → Reading → Except WireError (σ × Reading)} {put : σ → β → σ}
  {Entry : β → Text → Text → Prop} {cost : β → Nat} {Good : β → Prop}

/-- `add` reads entries of the grammar and puts them to what has been found. -/
def Adds (limits : Limits) (add : σ → Reading → Except WireError (σ × Reading)) (put : σ → β → σ)
    (Entry : β → Text → Text → Prop) (cost : β → Nat) (Good : β → Prop) : Prop :=
  ∀ (found found' : σ) (before after : Reading), add found before = .ok (found', after) →
    ∃ entry start, found' = put found entry ∧ Blank before.rest start ∧ Entry entry start after.rest ∧
      Reads limits (cost entry) before after ∧ Good entry

theorem entriesLoop_ok (adds : Adds limits add put Entry cost Good) {fuel : Nat} {found found' : σ}
    {before after : Reading} {outer : Text} (blank : Blank outer before.rest)
    (read : entriesLoop ending close add fuel found before = .ok (found', after)) :
    ∃ entries rest, found' = entries.foldl put found ∧ after.rest = close :: rest ∧
      Separated Entry close entries outer rest ∧ Reads limits (entries.map cost).sum before after ∧
      ∀ entry ∈ entries, Good entry := by
  induction fuel generalizing found before outer with
  | zero => cases read
  | succ fuel ih =>
    obtain ⟨⟨next, middle⟩, added, read⟩ := bind_ok read
    obtain ⟨rest, spaced, read⟩ := bind_ok read
    obtain ⟨seen, peeked, read⟩ := bind_ok read
    obtain ⟨entry, start, rfl, leading, there, reads, good⟩ := adds _ _ _ _ added
    split at read
    · rename_i closing
      cases read
      obtain ⟨tail, rfl⟩ := peek_some (closing ▸ peeked)
      refine ⟨[entry], tail, rfl, rfl, .last (blank.trans leading) there (whitespace_ok spaced), ?_, by simpa using good⟩
      exact ⟨by simpa using reads.charged, reads.paid⟩
    · obtain ⟨rest₁, separator, read⟩ := bind_ok read
      obtain ⟨rest₂, spaced', read⟩ := bind_ok read
      rw [require_ok separator] at spaced
      obtain ⟨entries, last, same, closed, separated, later, all⟩ := ih (whitespace_ok spaced') read
      refine ⟨entry :: entries, last, same, closed,
        .more (blank.trans leading) there (whitespace_ok spaced) separated, ⟨?_, later.paid⟩,
        List.forall_mem_cons.mpr ⟨good, all⟩⟩
      have charged := reads.charged
      have chargedLater := later.charged
      rw [List.map_cons, List.sum_cons]
      dsimp only at chargedLater
      omega

theorem enclosed_ok (adds : Adds limits add put Entry cost Good) {empty found : σ} {before after : Reading}
    {c : CodePoint} {inner : Text} (begins : before.rest = c :: inner) (paid : before.count ≤ limits.maxJsonItems)
    (read : enclosed ending close add empty before = .ok (found, after)) :
    ∃ entries, found = entries.foldl put empty ∧
      (entries = [] ∧ Blank inner (close :: after.rest) ∨ Separated Entry close entries inner after.rest) ∧
      Reads limits (entries.map cost).sum before after ∧ ∀ entry ∈ entries, Good entry := by
  obtain ⟨⟨opening, tail⟩, opened, read⟩ := bind_ok read
  obtain ⟨rest, spaced, read⟩ := bind_ok read
  obtain ⟨next, peeked, read⟩ := bind_ok read
  obtain ⟨⟨all, middle⟩, looped, read⟩ := bind_ok read
  obtain ⟨last, closed, read⟩ := bind_ok read
  cases read
  rw [begins] at opened
  cases opened
  have same := require_ok closed
  split at looped
  · cases looped
    subst same
    exact ⟨[], rfl, Or.inl ⟨rfl, whitespace_ok spaced⟩, ⟨rfl, paid⟩, by simp⟩
  · obtain ⟨entries, tail, rfl, ended, separated, reads, good⟩ := entriesLoop_ok adds (whitespace_ok spaced) looped
    rw [ended] at same
    cases same
    exact ⟨entries, rfl, Or.inr separated, ⟨reads.charged, reads.paid⟩, good⟩

end

/-- The bounds of a parsed value. -/
structure Bounded (limits : Limits) (tree : ExactTree) (depth : Nat) : Prop where
  depth : depth + tree.depth ≤ limits.maxJsonDepth
  strings : tree.Strings fun text => text.length ≤ limits.maxStringLength

/-- What a reader of values at a depth does when it succeeds. -/
def ReadsValues (limits : Limits) (depth : Nat) (value : Reading → Except WireError (ExactTree × Reading)) : Prop :=
  ∀ (tree : ExactTree) (before after : Reading), value before = .ok (tree, after) →
    ∃ source start, tree = source.denote ∧ Blank before.rest start ∧ ValueText source start after.rest ∧
      Reads limits source.items before after ∧ Bounded limits source depth

theorem addElement_adds {depth : Nat} {value : Reading → Except WireError (ExactTree × Reading)}
    (reads : ReadsValues limits depth value) :
    Adds limits (addElement value) (fun sequence source => sequence ++ [source.denote]) ValueText ExactTree.items
      (Bounded limits · depth) := by
  intro found found' before after added
  obtain ⟨⟨child, last⟩, read, added⟩ := bind_ok added
  cases added
  obtain ⟨source, start, rfl, blank, there, charged, bounded⟩ := reads _ _ _ read
  exact ⟨source, start, rfl, blank, there, charged, bounded⟩

theorem addMember_adds {depth : Nat} {value : Reading → Except WireError (ExactTree × Reading)}
    (reads : ReadsValues limits depth value) :
    Adds limits (addMember ending limits value) (fun mapping member => mapping.set member.1 member.2.denote)
      (MemberText ValueText) (fun member => member.2.items)
      fun member => member.1.length ≤ limits.maxStringLength ∧ Bounded limits member.2 depth := by
  intro found found' before after added
  obtain ⟨⟨key, rest₁⟩, named, added⟩ := bind_ok added
  obtain ⟨rest₂, spaced, added⟩ := bind_ok added
  obtain ⟨rest₃, separator, added⟩ := bind_ok added
  obtain ⟨⟨child, last⟩, read, added⟩ := bind_ok added
  cases added
  obtain ⟨string, short⟩ := readString_ok named
  obtain ⟨source, start, rfl, blank, there, charged, bounded⟩ := reads _ _ _ read
  dsimp only at spaced separator blank
  rw [require_ok separator] at spaced
  exact ⟨(key, source), before.rest, rfl, .none, .pair string (whitespace_ok spaced) blank there,
    ⟨charged.charged, charged.paid⟩, short, bounded⟩

theorem foldl_elements (values : List ExactTree) (found : List ExactTree) :
    values.foldl (fun sequence source => sequence ++ [source.denote]) found = found ++ ExactTree.denoteAll values := by
  induction values generalizing found with
  | nil => exact (List.append_nil _).symm
  | cons value rest ih => rw [List.foldl_cons, ih, ExactTree.denoteAll, List.append_assoc, List.singleton_append]

theorem foldl_members (members : List (Text × ExactTree)) (found : Dict Text ExactTree) :
    members.foldl (fun mapping member => mapping.set member.1 member.2.denote) found =
      ExactTree.denoteMembers found members := by
  induction members generalizing found with
  | nil => rfl
  | cons member rest ih => rw [List.foldl_cons, ih, ExactTree.denoteMembers]

theorem Reads.add {first second : Nat} {before middle after : Reading} (counted : middle.count = before.count + first)
    (reads : Reads limits second middle after) : Reads limits (first + second) before after := by
  have charged := reads.charged
  exact ⟨by omega, reads.paid⟩

section
variable {value : Reading → Except WireError (ExactTree × Reading)} {depth count : Nat} {before after : Reading}

theorem object_ok (reads : ReadsValues limits (depth + 1) value) {mapping : Dict Text ExactTree} {tail : Text}
    (begins : before.rest = openObject :: tail) (paid : before.count ≤ limits.maxJsonItems)
    (deep : depth ≤ limits.maxJsonDepth)
    (read : enclosed ending closeObject (addMember ending limits value) .empty before = .ok (mapping, after)) :
    ∃ source, ExactTree.object mapping.items = source.denote ∧ ValueText source before.rest after.rest ∧
      after.count + 1 = before.count + source.items ∧ after.count ≤ limits.maxJsonItems ∧ Bounded limits source depth := by
  obtain ⟨members, rfl, inner, reads, good⟩ := enclosed_ok (addMember_adds reads) begins paid read
  have charged := reads.charged
  refine ⟨.object members, ?_, ?_, ?_, reads.paid, ⟨?_, ?_⟩⟩
  · rw [foldl_members, ExactTree.denote]
  · rw [begins]
    rcases inner with ⟨rfl, closing⟩ | separated
    · exact .emptyObject closing
    · exact .object separated
  · rw [ExactTree.items, ExactTree.itemsMembers_eq]
    omega
  · have below : ExactTree.depthMembers members ≤ limits.maxJsonDepth - depth := by
      rw [ExactTree.depthMembers_le]
      intro member found
      have inside := (good member found).2.depth
      omega
    rw [ExactTree.depth]
    omega
  · rw [ExactTree.Strings, ExactTree.stringsMembers_iff]
    exact fun member found => ⟨(good member found).1, (good member found).2.strings⟩

theorem array_ok (reads : ReadsValues limits (depth + 1) value) {sequence : List ExactTree} {tail : Text}
    (begins : before.rest = openArray :: tail) (paid : before.count ≤ limits.maxJsonItems)
    (deep : depth ≤ limits.maxJsonDepth)
    (read : enclosed ending closeArray (addElement value) [] before = .ok (sequence, after)) :
    ∃ source, ExactTree.array sequence = source.denote ∧ ValueText source before.rest after.rest ∧
      after.count + 1 = before.count + source.items ∧ after.count ≤ limits.maxJsonItems ∧ Bounded limits source depth := by
  obtain ⟨values, rfl, inner, reads, good⟩ := enclosed_ok (addElement_adds reads) begins paid read
  have charged := reads.charged
  refine ⟨.array values, ?_, ?_, ?_, reads.paid, ⟨?_, ?_⟩⟩
  · rw [foldl_elements, ExactTree.denote, List.nil_append]
  · rw [begins]
    rcases inner with ⟨rfl, closing⟩ | separated
    · exact .emptyArray closing
    · exact .array separated
  · rw [ExactTree.items, ExactTree.itemsAll_eq]
    omega
  · have below : ExactTree.depthAll values ≤ limits.maxJsonDepth - depth := by
      rw [ExactTree.depthAll_le]
      intro value member
      have inside := (good value member).depth
      omega
    rw [ExactTree.depth]
    omega
  · rw [ExactTree.Strings, ExactTree.stringsAll_iff]
    exact fun value member => (good value member).strings

theorem bounded_scalar {tree : ExactTree} (flat : tree.depth = 0)
    (strings : tree.Strings fun text => text.length ≤ limits.maxStringLength) (deep : depth ≤ limits.maxJsonDepth) :
    Bounded limits tree depth :=
  ⟨by omega, strings⟩

theorem readFirst_ok (reads : ReadsValues limits (depth + 1) value) {c : CodePoint} {tail : Text} {tree : ExactTree}
    (paid : count + 1 ≤ limits.maxJsonItems) (deep : depth ≤ limits.maxJsonDepth)
    (read : readFirst ending limits value c (c :: tail) (count + 1) = .ok (tree, after)) :
    ∃ source, tree = source.denote ∧ ValueText source (c :: tail) after.rest ∧
      after.count = count + source.items ∧ after.count ≤ limits.maxJsonItems ∧ Bounded limits source depth := by
  unfold readFirst at read
  by_cases string : c = quote
  · rw [if_pos string] at read
    obtain ⟨⟨text, last⟩, quoted, read⟩ := bind_ok read
    cases read
    obtain ⟨found, short⟩ := readString_ok quoted
    exact ⟨.str text, rfl, .str found, rfl, paid, bounded_scalar rfl short deep⟩
  rw [if_neg string] at read
  by_cases object : c = openObject
  · rw [if_pos object] at read
    obtain ⟨⟨mapping, last⟩, body, read⟩ := bind_ok read
    cases read
    obtain ⟨source, same, found, charged, bound, bounded⟩ := object_ok reads (by rw [object]) paid deep body
    exact ⟨source, same, found, by dsimp only at charged; omega, bound, bounded⟩
  rw [if_neg object] at read
  by_cases array : c = openArray
  · rw [if_pos array] at read
    obtain ⟨⟨sequence, last⟩, body, read⟩ := bind_ok read
    cases read
    obtain ⟨source, same, found, charged, bound, bounded⟩ := array_ok reads (by rw [array]) paid deep body
    exact ⟨source, same, found, by dsimp only at charged; omega, bound, bounded⟩
  rw [if_neg array] at read
  by_cases isNull : c = 0x6e
  · rw [if_pos isNull] at read
    obtain ⟨last, word, read⟩ := bind_ok read
    cases read
    rw [requireAll_ok word]
    exact ⟨.null, rfl, .null, rfl, paid, bounded_scalar rfl trivial deep⟩
  rw [if_neg isNull] at read
  by_cases isTrue : c = 0x74
  · rw [if_pos isTrue] at read
    obtain ⟨last, word, read⟩ := bind_ok read
    cases read
    rw [requireAll_ok word]
    exact ⟨.bool true, rfl, .true, rfl, paid, bounded_scalar rfl trivial deep⟩
  rw [if_neg isTrue] at read
  by_cases isFalse : c = 0x66
  · rw [if_pos isFalse] at read
    obtain ⟨last, word, read⟩ := bind_ok read
    cases read
    rw [requireAll_ok word]
    exact ⟨.bool false, rfl, .false, rfl, paid, bounded_scalar rfl trivial deep⟩
  rw [if_neg isFalse] at read
  by_cases isNumber : c = 0x2d ∨ isDigit c = true
  · rw [if_pos isNumber] at read
    obtain ⟨⟨token, last⟩, taken, read⟩ := bind_ok read
    obtain ⟨number, made, read⟩ := bind_ok read
    cases read
    rw [readNumber_ok taken, ← ofToken_ok made]
    exact ⟨.number number, rfl, .number (isNumber_iff.mp number.proper), rfl, paid, bounded_scalar rfl trivial deep⟩
  · rw [if_neg isNumber] at read
    cases read

end

/-- Whatever is read is a text of the grammar within the limits. -/
theorem readValue_ok (fuel depth : Nat) : ReadsValues limits depth (readValue ending limits fuel depth) := by
  induction fuel generalizing depth with
  | zero =>
    intro tree before after read
    cases read
  | succ fuel ih =>
    intro tree before after read
    obtain ⟨count, charged, read⟩ := bind_ok read
    obtain ⟨rest, spaced, read⟩ := bind_ok read
    obtain ⟨first, peeked, read⟩ := bind_ok read
    obtain ⟨rfl, items, deep⟩ := charge_ok charged
    cases first with
    | none => cases read
    | some c =>
      obtain ⟨tail, rfl⟩ := peek_some peeked
      obtain ⟨source, same, found, counted, bound, bounded⟩ := readFirst_ok (ih (depth + 1)) items deep read
      exact ⟨source, _, same, whitespace_ok spaced, found, ⟨counted, bound⟩, bounded⟩

end

end Pytitect.Wire
