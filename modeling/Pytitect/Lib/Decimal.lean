import Pytitect.Lib.JsonText
import Mathlib.Data.Nat.Digits.Lemmas

/-! Decimal numerals as texts. -/

namespace Decimal
open JsonText

def digit (n : Nat) : CodePoint := Fin.ofNat 0x110000 (0x30 + n)

/-- The decimal numeral of a number, as `str` writes it. -/
def numeral (n : Nat) : Text := if n = 0 then [0x30] else ((Nat.digits 10 n).map digit).reverse

/-- The last digits of a number, with zeros before them up to the width. -/
def padded : Nat → Nat → Text
  | 0, _ => []
  | width + 1, n => padded width (n / 10) ++ [digit (n % 10)]

/-- The number that a digit stands for. -/
def value (c : CodePoint) : Nat := c.val - 0x30

/-- `int` of a text of digits. -/
def read (text : Text) : Nat := text.foldl (fun n c => n * 10 + value c) 0

theorem digit_val : ∀ n < 10, (digit n).val = 0x30 + n := by decide

theorem digit_isDigit : ∀ n < 10, isDigit (digit n) = true := by decide

theorem value_digit : ∀ n < 10, value (digit n) = n := by decide

theorem foldl_eq (n : Nat) (text : Text) :
    text.foldl (fun n c => n * 10 + value c) n = n * 10 ^ text.length + read text := by
  induction text generalizing n with
  | nil => rw [read, List.foldl_nil, List.foldl_nil, List.length_nil, pow_zero, Nat.mul_one, Nat.add_zero]
  | cons c rest ih =>
    rw [read, List.foldl_cons, List.foldl_cons, ih, ih (0 * 10 + value c), List.length_cons, pow_succ]
    ring

theorem read_append (first second : Text) : read (first ++ second) = read first * 10 ^ second.length + read second := by
  rw [read, List.foldl_append, foldl_eq]
  rfl

theorem read_singleton (c : CodePoint) : read [c] = value c := by
  rw [read, List.foldl_cons, List.foldl_nil, Nat.zero_mul, Nat.zero_add]

theorem read_reverse_digits {digits : List Nat} (small : ∀ d ∈ digits, d < 10) :
    read (digits.map digit).reverse = Nat.ofDigits 10 digits := by
  induction digits with
  | nil => rfl
  | cons d rest ih =>
    rw [List.forall_mem_cons] at small
    rw [List.map_cons, List.reverse_cons, read_append, ih small.2, Nat.ofDigits_cons, List.length_singleton,
      read_singleton, value_digit d small.1]
    push_cast
    omega

theorem read_numeral (n : Nat) : read (numeral n) = n := by
  unfold numeral
  split
  · rename_i zero
    rw [zero]
    rfl
  · rw [read_reverse_digits fun d member => Nat.digits_lt_base (by decide) member, Nat.ofDigits_digits]

theorem numeral_digits (n : Nat) : Digits (numeral n) := by
  unfold numeral
  split
  · exact ⟨List.cons_ne_nil _ _, List.forall_mem_singleton.mpr rfl⟩
  · rename_i positive
    refine ⟨?_, fun c member => ?_⟩
    · intro empty
      rw [List.reverse_eq_nil_iff, List.map_eq_nil_iff, Nat.digits_eq_nil_iff_eq_zero] at empty
      exact positive empty
    · rw [List.mem_reverse, List.mem_map] at member
      obtain ⟨d, found, rfl⟩ := member
      exact digit_isDigit d (Nat.digits_lt_base (by decide) found)

/-- A numeral has no leading zero. -/
theorem numeral_integer (n : Nat) : IntegerText (numeral n) := by
  have proper := numeral_digits n
  unfold numeral at proper ⊢
  split
  · exact .zero
  · rename_i positive
    rw [if_neg positive] at proper
    have some : Nat.digits 10 n ≠ [] := fun empty => positive (Nat.digits_eq_nil_iff_eq_zero.mp empty)
    have last := Nat.getLast_digit_ne_zero 10 positive
    obtain ⟨front, top, split⟩ : ∃ front top, Nat.digits 10 n = front ++ [top] :=
      ⟨_, _, (List.dropLast_append_getLast some).symm⟩
    have small : top < 10 := Nat.digits_lt_base (b := 10) (m := n) (by decide) (by rw [split]; simp)
    have nonzero : top ≠ 0 := by
      intro zero
      apply last
      simp only [split, List.getLast_append_singleton]
      exact zero
    rw [split, List.map_append, List.map_cons, List.map_nil, List.reverse_append, List.reverse_singleton,
      List.singleton_append] at proper ⊢
    refine .other ?_ proper
    intro zero
    have value := digit_val top small
    rw [zero] at value
    change 0x30 = 0x30 + top at value
    omega

/-- `str` of an integer. -/
def signed (n : Int) : Text := if n < 0 then 0x2d :: numeral n.natAbs else numeral n.natAbs

theorem signed_number (n : Int) : NumberText (signed n) := by
  have whole := numeral_integer n.natAbs
  have plain : NumberText ([] ++ (numeral n.natAbs ++ ([] ++ []))) := .parts (Or.inl rfl) whole .none .none
  have minus : NumberText ([0x2d] ++ (numeral n.natAbs ++ ([] ++ []))) := .parts (Or.inr rfl) whole .none .none
  rw [List.append_nil, List.append_nil] at plain minus
  unfold signed
  split
  · exact minus
  · exact plain

theorem length_padded (width n : Nat) : (padded width n).length = width := by
  induction width generalizing n with
  | zero => rfl
  | succ width ih => rw [padded, List.length_append, ih, List.length_singleton]

theorem padded_isDigit (width n : Nat) : ∀ c ∈ padded width n, isDigit c = true := by
  induction width generalizing n with
  | zero => exact fun c absurd => by cases absurd
  | succ width ih =>
    rw [padded, List.forall_mem_append]
    exact ⟨ih _, List.forall_mem_singleton.mpr (digit_isDigit _ (Nat.mod_lt _ (by decide)))⟩

theorem read_padded {width n : Nat} (small : n < 10 ^ width) : read (padded width n) = n := by
  induction width generalizing n with
  | zero =>
    rw [pow_zero] at small
    have zero : n = 0 := by omega
    rw [zero]
    rfl
  | succ width ih =>
    have less : n / 10 < 10 ^ width := by
      rw [pow_succ] at small
      exact Nat.div_lt_of_lt_mul (by omega)
    rw [padded, read_append, ih less, List.length_singleton, read_singleton,
      value_digit _ (Nat.mod_lt _ (by decide))]
    omega

theorem numeral_step {n : Nat} (large : 10 ≤ n) :
    numeral n = numeral (n / 10) ++ [digit (n % 10)] := by
  unfold numeral
  rw [if_neg (by omega), if_neg (by omega), Nat.digits_def' (by decide) (by omega), List.map_cons, List.reverse_cons]

/-- More digits follow the numeral of a number that is not zero. -/
theorem numeral_append {n width low : Nat} (positive : 0 < n) (small : low < 10 ^ width) :
    numeral (n * 10 ^ width + low) = numeral n ++ padded width low := by
  induction width generalizing low with
  | zero =>
    rw [pow_zero] at small ⊢
    have zero : low = 0 := by omega
    rw [zero, Nat.mul_one, Nat.add_zero, padded, List.append_nil]
  | succ width ih =>
    have power : 0 < 10 ^ width := Nat.pow_pos (by decide)
    have less : low / 10 < 10 ^ width := by
      rw [pow_succ] at small
      omega
    have whole : n * 10 ^ (width + 1) = n * 10 ^ width * 10 := by rw [pow_succ, Nat.mul_assoc]
    have more : 0 < n * 10 ^ width := Nat.mul_pos positive power
    have high : (n * 10 ^ (width + 1) + low) / 10 = n * 10 ^ width + low / 10 := by omega
    have last : (n * 10 ^ (width + 1) + low) % 10 = low % 10 := by omega
    rw [numeral_step (by omega), high, last, ih less, padded, List.append_assoc]

theorem value_lt {c : CodePoint} (isDigit' : isDigit c = true) : value c < 10 := by
  obtain ⟨low, high⟩ := isDigit_bounds.mp isDigit'
  unfold value
  omega

theorem digit_value {c : CodePoint} (isDigit' : isDigit c = true) : digit (value c) = c := by
  obtain ⟨low, high⟩ := isDigit_bounds.mp isDigit'
  have small := value_lt isDigit'
  refine Fin.ext ?_
  rw [digit_val _ small]
  unfold value
  omega

/-- The digits of a text are those of its number. -/
theorem padded_read {text : Text} (digits : ∀ c ∈ text, isDigit c = true) : padded text.length (read text) = text := by
  induction text using List.reverseRecOn with
  | nil => rfl
  | append_singleton front c ih =>
    rw [List.forall_mem_append, List.forall_mem_singleton] at digits
    have small := value_lt digits.2
    have high : (read front * 10 ^ 1 + value c) / 10 = read front := by omega
    have last : (read front * 10 ^ 1 + value c) % 10 = value c := by omega
    rw [List.length_append, List.length_singleton, padded, read_append, List.length_singleton, read_singleton, high, last,
      ih digits.1, digit_value digits.2]

theorem read_lt {text : Text} (digits : ∀ c ∈ text, isDigit c = true) : read text < 10 ^ text.length := by
  induction text using List.reverseRecOn with
  | nil => exact Nat.one_pos
  | append_singleton front c ih =>
    rw [List.forall_mem_append, List.forall_mem_singleton] at digits
    have small := value_lt digits.2
    have less := ih digits.1
    rw [List.length_append, List.length_singleton, pow_succ, read_append, List.length_singleton, read_singleton]
    omega

/-- An integer without leading zeros is the numeral of its number. -/
theorem numeral_read {text : Text} (integer : IntegerText text) : numeral (read text) = text := by
  cases integer with
  | zero => rfl
  | @other c rest other digits =>
    have first := digits.2 c List.mem_cons_self
    have later : ∀ d ∈ rest, isDigit d = true := fun d member => digits.2 d (List.mem_cons_of_mem _ member)
    have small := value_lt first
    have positive : 0 < value c := by
      have back := digit_value first
      by_contra zero
      have none : value c = 0 := by omega
      rw [none] at back
      exact other (back.symm.trans (by decide))
    have bound := read_lt later
    have split : read (c :: rest) = value c * 10 ^ rest.length + read rest := by
      have parts := read_append [c] rest
      rwa [read_singleton, List.singleton_append] at parts
    have one : numeral (value c) = [c] := by
      unfold numeral
      rw [if_neg (by omega), Nat.digits_of_lt 10 _ (by omega) small, List.map_singleton, List.reverse_singleton, digit_value first]
    rw [split, numeral_append positive bound, padded_read later, one, List.singleton_append]

end Decimal
