import Mathlib.Algebra.Order.Field.Rat
import Mathlib.Data.Nat.Log
import Mathlib.Tactic.FieldSimp
import Mathlib.Tactic.Linarith
import Mathlib.Tactic.Ring

/-! Binary64 numbers by their bits. Magnitudes are counted in units of the smallest
subnormal number, of which every finite magnitude is a multiple. -/

namespace Binary64

/-- The bits of positive infinity. -/
def infinity : Nat := 2047 * 2 ^ 52

/-- The smallest subnormal number is two to this power, negated. -/
def unitExponent : Nat := 1074

/-- How many units a finite magnitude takes. -/
def units (magnitude : Nat) : Nat :=
  if magnitude / 2 ^ 52 = 0 then magnitude else (2 ^ 52 + magnitude % 2 ^ 52) * 2 ^ (magnitude / 2 ^ 52 - 1)

/-- The nearest integer of a fraction, and of two the even one. -/
def nearest (num den : Nat) : Nat :=
  if 2 * (num % den) < den ∨ (2 * (num % den) = den ∧ num / den % 2 = 0) then num / den else num / den + 1

/-- The magnitude nearest to so many units. The significand has 53 bits, so the last
`n.log2 + 1 - 53` binary digits of `n` units are rounded away. -/
def round (num den : Nat) : Nat :=
  let scale := (num / den).log2 + 1 - 53
  min (scale * 2 ^ 52 + nearest num (den * 2 ^ scale)) infinity

theorem nearest_exact {den : Nat} (positive : 0 < den) (n : Nat) : nearest (n * den) den = n := by
  unfold nearest
  rw [Nat.mul_mod_left, Nat.mul_div_cancel _ positive, if_pos (Or.inl (by omega))]

/-- A magnitude is what its own units are rounded to. -/
theorem round_units {magnitude den : Nat} (finite : magnitude < infinity) (positive : 0 < den) :
    round (units magnitude * den) den = magnitude := by
  have shape : ∃ scale significand, units magnitude = significand * 2 ^ scale ∧
      (units magnitude).log2 + 1 - 53 = scale ∧ scale * 2 ^ 52 + significand = magnitude := by
    unfold units
    split
    · rename_i subnormal
      have small : magnitude < 2 ^ 52 := by omega
      refine ⟨0, magnitude, by rw [pow_zero, Nat.mul_one], ?_, by omega⟩
      have bits : magnitude.log2 < 52 ∨ magnitude = 0 := by
        by_cases zero : magnitude = 0
        · exact Or.inr zero
        · exact Or.inl ((Nat.log2_lt zero).mpr small)
      rcases bits with few | rfl
      · omega
      · rfl
    · rename_i normal
      have significand : magnitude % 2 ^ 52 < 2 ^ 52 := Nat.mod_lt _ (by decide)
      refine ⟨magnitude / 2 ^ 52 - 1, 2 ^ 52 + magnitude % 2 ^ 52, rfl, ?_, by omega⟩
      have some : (2 ^ 52 + magnitude % 2 ^ 52) * 2 ^ (magnitude / 2 ^ 52 - 1) ≠ 0 := by positivity
      have bits : ((2 ^ 52 + magnitude % 2 ^ 52) * 2 ^ (magnitude / 2 ^ 52 - 1)).log2 = 52 + (magnitude / 2 ^ 52 - 1) := by
        have lower : 2 ^ 52 * 2 ^ (magnitude / 2 ^ 52 - 1) ≤
            (2 ^ 52 + magnitude % 2 ^ 52) * 2 ^ (magnitude / 2 ^ 52 - 1) := Nat.mul_le_mul_right _ (Nat.le_add_right _ _)
        have upper : (2 ^ 52 + magnitude % 2 ^ 52) * 2 ^ (magnitude / 2 ^ 52 - 1) <
            2 ^ 53 * 2 ^ (magnitude / 2 ^ 52 - 1) :=
          Nat.mul_lt_mul_of_pos_right (by omega) (Nat.two_pow_pos _)
        rw [Nat.log2_eq_iff some, Nat.add_right_comm, pow_add, pow_add]
        exact ⟨lower, upper⟩
      omega
  obtain ⟨scale, significand, split, bits, whole⟩ := shape
  unfold round
  dsimp only
  rw [Nat.mul_div_cancel _ positive, bits, split, Nat.mul_assoc, Nat.mul_comm (2 ^ scale), nearest_exact (by positivity), whole]
  exact Nat.min_eq_left finite.le

theorem round_le (num den : Nat) : round num den ≤ infinity := Nat.min_le_right _ _

def isNegative (bits : UInt64) : Bool := bits.toNat / 2 ^ 63 = 1

def magnitude (bits : UInt64) : Nat := bits.toNat % 2 ^ 63

/-- The number that finite bits stand for. -/
def value (bits : UInt64) : ℚ :=
  (if isNegative bits then -1 else 1) * (units (magnitude bits) / 2 ^ unitExponent)

/-- The bits of a sign and a magnitude. -/
def pack (negative : Bool) (magnitude : Nat) : UInt64 := .ofNat ((if negative then 2 ^ 63 else 0) + magnitude)

/-- The bits nearest to a decimal number. -/
def ofDecimal (negative : Bool) (coefficient : Nat) (exponent : Int) : UInt64 :=
  pack negative (round (coefficient * 10 ^ exponent.toNat * 2 ^ unitExponent) (10 ^ (-exponent).toNat))

section
variable {negative : Bool} {m : Nat}

theorem toNat_pack (small : m < 2 ^ 63) : (pack negative m).toNat = (if negative then 2 ^ 63 else 0) + m := by
  unfold pack
  rw [UInt64.toNat_ofNat']
  apply Nat.mod_eq_of_lt
  split
  · omega
  · omega

theorem isNegative_pack (small : m < 2 ^ 63) : isNegative (pack negative m) = negative := by
  unfold isNegative
  rw [toNat_pack small]
  cases negative with
  | true =>
    rw [if_pos rfl, decide_eq_true_iff]
    omega
  | false =>
    rw [if_neg (by decide), decide_eq_false_iff_not]
    omega

theorem magnitude_pack (small : m < 2 ^ 63) : magnitude (pack negative m) = m := by
  unfold magnitude
  rw [toNat_pack small]
  split
  · omega
  · omega

end

/-- The value of a decimal number. -/
def decimalValue (negative : Bool) (coefficient : Nat) (exponent : Int) : ℚ :=
  (if negative then -1 else 1) * (coefficient * 10 ^ exponent.toNat / 10 ^ (-exponent).toNat)

/-- A decimal number with the value of finite bits is rounded to bits of that value. -/
theorem value_ofDecimal {negative : Bool} {coefficient : Nat} {exponent : Int} {bits : UInt64}
    (finite : magnitude bits < infinity) (same : value bits = decimalValue negative coefficient exponent) :
    magnitude (ofDecimal negative coefficient exponent) < infinity ∧
      value (ofDecimal negative coefficient exponent) = decimalValue negative coefficient exponent := by
  have below : infinity < 2 ^ 63 := by decide
  have sign : ∀ b : Bool, (if b then (-1 : ℚ) else 1) = 1 ∨ (if b then (-1 : ℚ) else 1) = -1 := fun b => by
    cases b
    · exact Or.inl rfl
    · exact Or.inr rfl
  have unitsPos : (0 : ℚ) ≤ units (magnitude bits) / 2 ^ unitExponent :=
    div_nonneg (Nat.cast_nonneg _) (pow_nonneg (by norm_num) _)
  have decimalPos : (0 : ℚ) ≤ coefficient * 10 ^ exponent.toNat / 10 ^ (-exponent).toNat :=
    div_nonneg (mul_nonneg (Nat.cast_nonneg _) (pow_nonneg (by norm_num) _)) (pow_nonneg (by norm_num) _)
  have absolute : (units (magnitude bits) : ℚ) / 2 ^ unitExponent = coefficient * 10 ^ exponent.toNat / 10 ^ (-exponent).toNat := by
    unfold value decimalValue at same
    rcases sign (isNegative bits) with first | first <;> rcases sign negative with second | second <;>
      rw [first, second] at same <;> linarith
  have products : coefficient * 10 ^ exponent.toNat * 2 ^ unitExponent = units (magnitude bits) * 10 ^ (-exponent).toNat := by
    rw [div_eq_div_iff (pow_ne_zero _ two_ne_zero) (pow_ne_zero _ (by norm_num))] at absolute
    exact_mod_cast absolute.symm
  have rounded : round (coefficient * 10 ^ exponent.toNat * 2 ^ unitExponent) (10 ^ (-exponent).toNat) = magnitude bits := by
    rw [products]
    exact round_units finite (Nat.pow_pos (by decide))
  unfold ofDecimal
  rw [rounded, magnitude_pack (by omega)]
  refine ⟨finite, ?_⟩
  unfold value decimalValue
  rw [isNegative_pack (by omega), magnitude_pack (by omega), absolute]

end Binary64
