import Pytitect.Wire.Encoding

namespace Pytitect.Wire
open JsonText Text

/-- The texts of a value. -/
inductive ValueText : ExactTree → Text → Text → Prop
  | null {rest : Text} : ValueText .null (nullWord ++ rest) rest
  | true {rest : Text} : ValueText (.bool true) (trueWord ++ rest) rest
  | false {rest : Text} : ValueText (.bool false) (falseWord ++ rest) rest
  | number {value : ExactNumber} {rest : Text} : NumberText value.token →
      ValueText (.number value) (value.token ++ rest) rest
  | str {text before after : Text} : StringText text before after → ValueText (.str text) before after
  | emptyArray {inner after : Text} : Blank inner (closeArray :: after) → ValueText (.array []) (openArray :: inner) after
  | array {values : List ExactTree} {inner after : Text} : Separated ValueText closeArray values inner after →
      ValueText (.array values) (openArray :: inner) after
  | emptyObject {inner after : Text} : Blank inner (closeObject :: after) →
      ValueText (.object []) (openObject :: inner) after
  | object {members : List (Text × ExactTree)} {inner after : Text} :
      Separated (MemberText ValueText) closeObject members inner after →
      ValueText (.object members) (openObject :: inner) after

/-- A whole text: one value, and nothing but blanks around it. -/
def DocumentText (tree : ExactTree) (text : Text) : Prop :=
  ∃ start rest, Blank text start ∧ ValueText tree start rest ∧ Blank rest []

/-- No digit follows. -/
def NoDigit (rest : Text) : Prop := ∀ c tail, rest = c :: tail → isDigit c = false

theorem noDigit_nil : NoDigit [] := by
  intro c tail absurd
  cases absurd

theorem noDigit_cons {c : CodePoint} {tail : Text} (other : isDigit c = false) : NoDigit (c :: tail) := by
  intro d rest same
  cases same
  exact other

theorem digits_some {text rest : Text} (found : digits text = some rest) :
    ∃ taken, Digits taken ∧ text = taken ++ rest := by
  cases text with
  | nil => cases found
  | cons c tail =>
    rw [digits] at found
    split at found
    · rename_i first
      cases found
      refine ⟨c :: tail.takeWhile isDigit, ⟨List.cons_ne_nil _ _, ?_⟩, ?_⟩
      · intro d member
        rcases List.mem_cons.mp member with rfl | later
        · exact first
        · exact List.all_eq_true.mp List.all_takeWhile d later
      · rw [List.cons_append, List.takeWhile_append_dropWhile]
    · cases found

theorem digits_append {taken rest : Text} (proper : Digits taken) (stop : NoDigit rest) :
    digits (taken ++ rest) = some rest := by
  obtain ⟨some, all⟩ := proper
  cases taken with
  | nil => exact absurd rfl some
  | cons c tail =>
    rw [List.forall_mem_cons] at all
    rw [List.cons_append, digits, if_pos all.1, List.dropWhile_append_of_pos all.2]
    cases rest with
    | nil => rfl
    | cons d rest => rw [List.dropWhile_cons_of_neg (by rw [stop d rest rfl]; decide)]

theorem afterSign_split (text : Text) : ∃ sign, (sign = [] ∨ sign = [0x2d]) ∧ text = sign ++ afterSign text := by
  cases text with
  | nil => exact ⟨[], Or.inl rfl, rfl⟩
  | cons c tail =>
    rw [afterSign]
    split
    · rename_i minus
      exact ⟨[0x2d], Or.inr rfl, by rw [minus]; rfl⟩
    · exact ⟨[], Or.inl rfl, rfl⟩

theorem afterInteger_some {text rest : Text} (found : afterInteger text = some rest) :
    ∃ integer, IntegerText integer ∧ text = integer ++ rest := by
  cases text with
  | nil => cases found
  | cons c tail =>
    rw [afterInteger] at found
    split at found
    · rename_i zero
      cases found
      exact ⟨[0x30], .zero, by rw [zero]; rfl⟩
    · rename_i other
      obtain ⟨taken, proper, same⟩ := digits_some found
      cases taken with
      | nil => exact absurd rfl proper.1
      | cons d taken =>
        cases same
        exact ⟨_, .other other proper, rfl⟩

theorem afterFraction_some {text rest : Text} (found : afterFraction text = some rest) :
    ∃ fraction, FractionText fraction ∧ text = fraction ++ rest := by
  cases text with
  | nil =>
    cases found
    exact ⟨[], .none, rfl⟩
  | cons c tail =>
    rw [afterFraction] at found
    split at found
    · rename_i point
      obtain ⟨taken, proper, rfl⟩ := digits_some found
      exact ⟨0x2e :: taken, .point proper, by rw [point]; rfl⟩
    · cases found
      exact ⟨[], .none, rfl⟩

theorem afterExponentSign_split (text : Text) :
    ∃ sign, (sign = [] ∨ sign = [0x2b] ∨ sign = [0x2d]) ∧ text = sign ++ afterExponentSign text := by
  cases text with
  | nil => exact ⟨[], Or.inl rfl, rfl⟩
  | cons c tail =>
    rw [afterExponentSign]
    split
    · rename_i signed
      refine ⟨[c], Or.inr ?_, rfl⟩
      rcases signed with rfl | rfl
      · exact Or.inl rfl
      · exact Or.inr rfl
    · exact ⟨[], Or.inl rfl, rfl⟩

theorem afterExponent_some {text rest : Text} (found : afterExponent text = some rest) :
    ∃ exponent, ExponentText exponent ∧ text = exponent ++ rest := by
  cases text with
  | nil =>
    cases found
    exact ⟨[], .none, rfl⟩
  | cons c tail =>
    rw [afterExponent] at found
    split at found
    · rename_i letter
      obtain ⟨taken, proper, same⟩ := digits_some found
      obtain ⟨sign, signed, split⟩ := afterExponentSign_split tail
      refine ⟨c :: (sign ++ taken), .power letter signed proper, ?_⟩
      rw [List.cons_append, List.append_assoc, ← same, ← split]
    · cases found
      exact ⟨[], .none, rfl⟩

theorem afterSign_integer {integer rest : Text} (proper : IntegerText integer) :
    afterSign (integer ++ rest) = integer ++ rest := by
  cases proper with
  | zero => rfl
  | @other c digits other proper =>
    have first := isDigit_bounds.mp (proper.2 c (by simp))
    have unsigned : c ≠ 0x2d := by
      rintro rfl
      exact absurd first (by decide)
    rw [List.cons_append, afterSign, if_neg unsigned]

theorem afterInteger_append {integer rest : Text} (proper : IntegerText integer) (stop : NoDigit rest) :
    afterInteger (integer ++ rest) = some rest := by
  cases proper with
  | zero => rfl
  | other other proper =>
    rw [List.cons_append, afterInteger, if_neg other]
    exact digits_append proper stop

theorem exponent_stops {exponent : Text} (proper : ExponentText exponent) : NoDigit exponent := by
  cases proper with
  | none => exact noDigit_nil
  | power letter _ _ =>
    rcases letter with rfl | rfl
    · exact noDigit_cons rfl
    · exact noDigit_cons rfl

theorem fraction_stops {fraction exponent : Text} (proper : FractionText fraction) (power : ExponentText exponent) :
    NoDigit (fraction ++ exponent) := by
  cases proper with
  | none => exact exponent_stops power
  | point _ => exact noDigit_cons rfl

theorem afterFraction_append {fraction exponent : Text} (proper : FractionText fraction) (power : ExponentText exponent) :
    afterFraction (fraction ++ exponent) = some exponent := by
  cases proper with
  | none =>
    cases power with
    | none => rfl
    | power letter _ _ =>
      rcases letter with rfl | rfl
      · rfl
      · rfl
  | point taken =>
    rw [List.cons_append, afterFraction, if_pos rfl]
    exact digits_append taken (exponent_stops power)

theorem afterExponentSign_append {sign taken : Text} (signed : sign = [] ∨ sign = [0x2b] ∨ sign = [0x2d])
    (proper : Digits taken) : afterExponentSign (sign ++ taken) = taken := by
  rcases signed with rfl | rfl | rfl
  · obtain ⟨some, all⟩ := proper
    cases taken with
    | nil => exact absurd rfl some
    | cons c tail =>
      have first := isDigit_bounds.mp (all c (by simp))
      have unsigned : ¬(c = 0x2b ∨ c = 0x2d) := by
        rintro (rfl | rfl)
        · exact absurd first (by decide)
        · exact absurd first (by decide)
      rw [List.nil_append, afterExponentSign, if_neg unsigned]
  · rfl
  · rfl

theorem afterExponent_whole {exponent : Text} (proper : ExponentText exponent) : afterExponent exponent = some [] := by
  cases proper with
  | none => rfl
  | @power letter sign taken which signed proper =>
    rw [afterExponent, if_pos which, afterExponentSign_append signed proper]
    have all := digits_append proper noDigit_nil
    rwa [List.append_nil] at all

/-- The pattern matches exactly the numbers of the grammar. -/
theorem isNumber_iff {token : Text} : isNumber token = true ↔ NumberText token := by
  unfold isNumber
  rw [decide_eq_true_iff]
  constructor
  · intro matched
    obtain ⟨afterPoint, found, power⟩ := Option.bind_eq_some_iff.mp matched
    obtain ⟨afterWhole, whole, point⟩ := Option.bind_eq_some_iff.mp found
    obtain ⟨sign, signed, split⟩ := afterSign_split token
    obtain ⟨integer, isInteger, same⟩ := afterInteger_some whole
    obtain ⟨fraction, isFraction, rfl⟩ := afterFraction_some point
    obtain ⟨exponent, isExponent, rfl⟩ := afterExponent_some power
    rw [split, same, List.append_nil]
    exact .parts signed isInteger isFraction isExponent
  · intro number
    obtain @⟨sign, integer, fraction, exponent, signed, isInteger, isFraction, isExponent⟩ := number
    have unsigned : afterSign (sign ++ (integer ++ (fraction ++ exponent))) = integer ++ (fraction ++ exponent) := by
      rcases signed with rfl | rfl
      · rw [List.nil_append]
        exact afterSign_integer isInteger
      · rfl
    rw [unsigned, afterInteger_append isInteger (fraction_stops isFraction isExponent), Option.bind_some,
      afterFraction_append isFraction isExponent, Option.bind_some, afterExponent_whole isExponent]

/-- The characters that numbers are made of. -/
def isNumberSign (c : CodePoint) : Bool :=
  isDigit c || c = 0x2d || c = 0x2b || c = 0x2e || c = 0x65 || c = 0x45

theorem sign_of_digit {c : CodePoint} (digit : isDigit c = true) : isNumberSign c = true := by
  rw [isNumberSign, digit]
  rfl

theorem number_signs {token : Text} (number : NumberText token) : ∀ c ∈ token, isNumberSign c = true := by
  obtain ⟨signed, isInteger, isFraction, isExponent⟩ := number
  simp only [List.forall_mem_append]
  refine ⟨?_, ?_, ?_, ?_⟩
  · rcases signed with rfl | rfl
    · exact fun c absurd => by cases absurd
    · exact List.forall_mem_singleton.mpr rfl
  · cases isInteger with
    | zero => exact List.forall_mem_singleton.mpr rfl
    | other _ proper => exact fun c member => sign_of_digit (proper.2 c member)
  · cases isFraction with
    | none => exact fun c absurd => by cases absurd
    | point proper =>
      rw [List.forall_mem_cons]
      exact ⟨by decide, fun c member => sign_of_digit (proper.2 c member)⟩
  · cases isExponent with
    | none => exact fun c absurd => by cases absurd
    | power letter signed proper =>
      rw [List.forall_mem_cons, List.forall_mem_append]
      refine ⟨?_, ?_, fun c member => sign_of_digit (proper.2 c member)⟩
      · rcases letter with rfl | rfl
        · rfl
        · rfl
      · rcases signed with rfl | rfl | rfl
        · exact fun c absurd => by cases absurd
        · exact List.forall_mem_singleton.mpr rfl
        · exact List.forall_mem_singleton.mpr rfl

/-- A number begins with a digit or a minus sign. -/
theorem number_head {token : Text} (number : NumberText token) :
    ∃ c tail, token = c :: tail ∧ (c = 0x2d ∨ isDigit c = true) := by
  obtain ⟨signed, isInteger, isFraction, isExponent⟩ := number
  rcases signed with rfl | rfl
  · cases isInteger with
    | zero => exact ⟨_, _, rfl, Or.inr rfl⟩
    | other _ proper => exact ⟨_, _, rfl, Or.inr (proper.2 _ (by simp))⟩
  · exact ⟨_, _, rfl, Or.inl rfl⟩

end Pytitect.Wire
