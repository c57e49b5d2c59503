import Pytitect.Lib.Unicode
import Pytitect.Lib.Dict

/-! The grammar of JSON texts. A production relates a text to what follows it:
`before` begins with the production and goes on with `after`. -/

namespace JsonText

abbrev quote : CodePoint := 0x22

abbrev backslash : CodePoint := 0x5c

abbrev comma : CodePoint := 0x2c

abbrev colon : CodePoint := 0x3a

abbrev openArray : CodePoint := 0x5b

abbrev closeArray : CodePoint := 0x5d

abbrev openObject : CodePoint := 0x7b

abbrev closeObject : CodePoint := 0x7d

def nullWord : Text := [0x6e, 0x75, 0x6c, 0x6c]

def trueWord : Text := [0x74, 0x72, 0x75, 0x65]

def falseWord : Text := [0x66, 0x61, 0x6c, 0x73, 0x65]

def isBlank (c : CodePoint) : Bool := c.val = 0x20 || c.val = 0x09 || c.val = 0x0d || c.val = 0x0a

def isDigit (c : CodePoint) : Bool := 0x30 ≤ c.val && c.val ≤ 0x39

def hexDigit (c : CodePoint) : Option Nat :=
  if isDigit c then some (c.val - 0x30)
  else if 0x61 ≤ c.val ∧ c.val ≤ 0x66 then some (c.val - 0x57)
  else if 0x41 ≤ c.val ∧ c.val ≤ 0x46 then some (c.val - 0x37)
  else none

/-- Four hexadecimal digits. -/
def hexQuad (a b c d : CodePoint) : Option Nat :=
  match hexDigit a, hexDigit b, hexDigit c, hexDigit d with
  | some a, some b, some c, some d => some (((a * 16 + b) * 16 + c) * 16 + d)
  | _, _, _, _ => none

/-- The escapes of one letter and what they stand for. -/
def escapes : Dict CodePoint CodePoint :=
  ⟨[(0x22, 0x22), (0x5c, 0x5c), (0x2f, 0x2f), (0x62, 0x08), (0x66, 0x0c), (0x6e, 0x0a), (0x72, 0x0d), (0x74, 0x09)],
    by decide⟩

/-- The blanks that may stand around a token. -/
inductive Blank : Text → Text → Prop
  | none {rest : Text} : Blank rest rest
  | more {c : CodePoint} {before after : Text} : isBlank c = true → Blank before after → Blank (c :: before) after

/-- One character of a string: no raw control character and no unpaired surrogate. -/
inductive CharText : CodePoint → Text → Text → Prop
  | plain {c : CodePoint} {rest : Text} : 0x20 ≤ c.val → c ≠ quote → c ≠ backslash → CharText c (c :: rest) rest
  | short {letter c : CodePoint} {rest : Text} : escapes.get? letter = some c →
      CharText c (backslash :: letter :: rest) rest
  | unit {d₁ d₂ d₃ d₄ : CodePoint} {code : Nat} {rest : Text} : hexQuad d₁ d₂ d₃ d₄ = some code →
      code < 0xd800 ∨ 0xdfff < code →
      CharText (Fin.ofNat 0x110000 code) (backslash :: 0x75 :: d₁ :: d₂ :: d₃ :: d₄ :: rest) rest
  | pair {d₁ d₂ d₃ d₄ e₁ e₂ e₃ e₄ : CodePoint} {high low : Nat} {rest : Text} : hexQuad d₁ d₂ d₃ d₄ = some high →
      0xd800 ≤ high ∧ high ≤ 0xdbff → hexQuad e₁ e₂ e₃ e₄ = some low → 0xdc00 ≤ low ∧ low ≤ 0xdfff →
      CharText (Fin.ofNat 0x110000 (0x10000 + (high - 0xd800) * 0x400 + low - 0xdc00))
        (backslash :: 0x75 :: d₁ :: d₂ :: d₃ :: d₄ :: backslash :: 0x75 :: e₁ :: e₂ :: e₃ :: e₄ :: rest) rest

/-- The characters of a string, and the quote that ends it. -/
inductive Characters : Text → Text → Text → Prop
  | close {rest : Text} : Characters [] (quote :: rest) rest
  | more {c : CodePoint} {text before middle after : Text} : CharText c before middle → Characters text middle after →
      Characters (c :: text) before after

inductive StringText : Text → Text → Text → Prop
  | quoted {text inner after : Text} : Characters text inner after → StringText text (quote :: inner) after

theorem isDigit_bounds {c : CodePoint} : isDigit c = true ↔ 0x30 ≤ c.val ∧ c.val ≤ 0x39 := by
  rw [isDigit, Bool.and_eq_true, decide_eq_true_iff, decide_eq_true_iff]

def Digits (text : Text) : Prop := text ≠ [] ∧ ∀ c ∈ text, isDigit c = true

inductive IntegerText : Text → Prop
  | zero : IntegerText [0x30]
  | other {c : CodePoint} {digits : Text} : c ≠ 0x30 → Digits (c :: digits) → IntegerText (c :: digits)

inductive FractionText : Text → Prop
  | none : FractionText []
  | point {digits : Text} : Digits digits → FractionText (0x2e :: digits)

inductive ExponentText : Text → Prop
  | none : ExponentText []
  | power {letter : CodePoint} {sign digits : Text} : letter = 0x65 ∨ letter = 0x45 →
      sign = [] ∨ sign = [0x2b] ∨ sign = [0x2d] → Digits digits → ExponentText (letter :: (sign ++ digits))

inductive NumberText : Text → Prop
  | parts {sign integer fraction exponent : Text} : sign = [] ∨ sign = [0x2d] → IntegerText integer →
      FractionText fraction → ExponentText exponent → NumberText (sign ++ (integer ++ (fraction ++ exponent)))

/-- One or more entries, separated by commas, and the sign that closes them. -/
inductive Separated {β : Type} (Entry : β → Text → Text → Prop) (close : CodePoint) : List β → Text → Text → Prop
  | last {entry : β} {before start middle after : Text} : Blank before start → Entry entry start middle →
      Blank middle (close :: after) → Separated Entry close [entry] before after
  | more {entry : β} {entries : List β} {before start middle next after : Text} : Blank before start →
      Entry entry start middle → Blank middle (comma :: next) → Separated Entry close entries next after →
      Separated Entry close (entry :: entries) before after

/-- A key and its value. -/
inductive MemberText {β : Type} (Value : β → Text → Text → Prop) : Text × β → Text → Text → Prop
  | pair {key : Text} {value : β} {before middle next start after : Text} : StringText key before middle →
      Blank middle (colon :: next) → Blank next start → Value value start after →
      MemberText Value (key, value) before after

theorem Blank.trans {before middle after : Text} (first : Blank before middle) (second : Blank middle after) :
    Blank before after := by
  induction first with
  | none => exact second
  | more blank _ ih => exact .more blank (ih second)

section
variable {β : Type} {Entry Other : β → Text → Text → Prop} {close : CodePoint}

theorem Separated.imp {entries : List β} {before after : Text} (separated : Separated Entry close entries before after)
    (other : ∀ entry ∈ entries, ∀ start rest, Entry entry start rest → Other entry start rest) :
    Separated Other close entries before after := by
  induction separated with
  | last blank found closing => exact .last blank (other _ (by simp) _ _ found) closing
  | more blank found sep _ ih =>
    exact .more blank (other _ (by simp) _ _ found) sep
      (ih fun entry member => other entry (List.mem_cons_of_mem _ member))

theorem Separated.map {γ : Type} {f : γ → β} {entries : List γ} {before after : Text}
    (separated : Separated (fun entry => Entry (f entry)) close entries before after) :
    Separated Entry close (entries.map f) before after := by
  induction separated with
  | last blank found closing => exact .last blank found closing
  | more blank found separator _ ih => exact .more blank found separator ih

theorem MemberText.imp {member : Text × β} {before after : Text} (found : MemberText Entry member before after)
    (other : ∀ start rest, Entry member.2 start rest → Other member.2 start rest) :
    MemberText Other member before after := by
  cases found with
  | pair key blank blank' value => exact .pair key blank blank' (other _ _ value)

end

end JsonText
