import Pytitect.Security.Encoding
import Mathlib.Tactic.Common

namespace Pytitect

/-- The sextets of the bytes; the bits that the last one has too many are zero. -/
def base64Sextets : List UInt8 → List Nat
  | [] => []
  | [a] => [a.toNat / 4, a.toNat % 4 * 16]
  | [a, b] => [a.toNat / 4, a.toNat % 4 * 16 + b.toNat / 16, b.toNat % 16 * 4]
  | a :: b :: c :: rest =>
    a.toNat / 4 :: (a.toNat % 4 * 16 + b.toNat / 16) :: (b.toNat % 16 * 4 + c.toNat / 64) :: c.toNat % 64 :: base64Sextets rest

/-- Sextets that end with whole bytes and have no bit set behind them. -/
def Unspent : List Nat → Prop
  | [] => True
  | [_] => False
  | [_, b] => b % 16 = 0
  | [_, _, c] => c % 4 = 0
  | _ :: _ :: _ :: _ :: rest => Unspent rest

theorem base64urlEncode_eq (bytes : List UInt8) : base64urlEncode bytes = (base64Sextets bytes).map base64Digit := by
  induction bytes using base64Sextets.induct with
  | case1 => rfl
  | case2 a => rfl
  | case3 a b => rfl
  | case4 a b c rest ih => rw [base64urlEncode, base64Sextets, ih]; rfl

theorem base64Sextets_lt (bytes : List UInt8) : ∀ sextet ∈ base64Sextets bytes, sextet < 64 := by
  induction bytes using base64Sextets.induct with
  | case1 => exact List.forall_mem_nil _
  | case2 a =>
    have small := a.toNat_lt
    simp only [base64Sextets, List.forall_mem_cons]
    refine ⟨by omega, by omega, List.forall_mem_nil _⟩
  | case3 a b =>
    have small := a.toNat_lt
    have small' := b.toNat_lt
    simp only [base64Sextets, List.forall_mem_cons]
    refine ⟨by omega, by omega, by omega, List.forall_mem_nil _⟩
  | case4 a b c rest ih =>
    have small := a.toNat_lt
    have small' := b.toNat_lt
    have small'' := c.toNat_lt
    simp only [base64Sextets, List.forall_mem_cons]
    exact ⟨by omega, by omega, by omega, by omega, ih⟩

theorem base64Sextets_unspent (bytes : List UInt8) : Unspent (base64Sextets bytes) := by
  induction bytes using base64Sextets.induct with
  | case1 => trivial
  | case2 a =>
    show a.toNat % 4 * 16 % 16 = 0
    omega
  | case3 a b =>
    show b.toNat % 16 * 4 % 4 = 0
    omega
  | case4 a b c rest ih => exact ih

/-- The bytes come back from their sextets. -/
theorem base64Bytes_sextets (bytes : List UInt8) : base64Bytes (base64Sextets bytes) = some bytes := by
  have whole : ∀ {byte : UInt8} {n : Nat}, n = byte.toNat → UInt8.ofNat n = byte := by
    rintro byte n rfl
    exact UInt8.ofNat_toNat
  induction bytes using base64Sextets.induct with
  | case1 => rfl
  | case2 a =>
    have first : UInt8.ofNat (a.toNat / 4 * 4 + a.toNat % 4 * 16 / 16) = a := whole (by omega)
    rw [base64Sextets, base64Bytes, first]
  | case3 a b =>
    have small := b.toNat_lt
    have first : UInt8.ofNat (a.toNat / 4 * 4 + (a.toNat % 4 * 16 + b.toNat / 16) / 16) = a := whole (by omega)
    have second : UInt8.ofNat ((a.toNat % 4 * 16 + b.toNat / 16) % 16 * 16 + b.toNat % 16 * 4 / 4) = b := whole (by omega)
    rw [base64Sextets, base64Bytes, first, second]
  | case4 a b c rest ih =>
    have small := b.toNat_lt
    have small' := c.toNat_lt
    have first : UInt8.ofNat (a.toNat / 4 * 4 + (a.toNat % 4 * 16 + b.toNat / 16) / 16) = a := whole (by omega)
    have second : UInt8.ofNat ((a.toNat % 4 * 16 + b.toNat / 16) % 16 * 16 + (b.toNat % 16 * 4 + c.toNat / 64) / 4) = b :=
      whole (by omega)
    have third : UInt8.ofNat ((b.toNat % 16 * 4 + c.toNat / 64) % 4 * 64 + c.toNat % 64) = c := whole (by omega)
    rw [base64Sextets, base64Bytes, ih, first, second, third]
    rfl

/-- Sextets without a set bit too many are those of some bytes. -/
theorem sextets_of_unspent {sextets : List Nat} (unspent : Unspent sextets) (small : ∀ sextet ∈ sextets, sextet < 64) :
    ∃ bytes, base64Sextets bytes = sextets := by
  have whole : ∀ n < 256, (UInt8.ofNat n).toNat = n := fun n bound => UInt8.toNat_ofNat_of_lt' bound
  induction sextets using Unspent.induct with
  | case1 => exact ⟨[], rfl⟩
  | case2 a => exact unspent.elim
  | case3 a b =>
    have zero : b % 16 = 0 := unspent
    simp only [List.forall_mem_cons] at small
    refine ⟨[.ofNat (a * 4 + b / 16)], ?_⟩
    rw [base64Sextets, whole _ (by omega)]
    simp only [List.cons.injEq, and_true]
    omega
  | case4 a b c =>
    have zero : c % 4 = 0 := unspent
    simp only [List.forall_mem_cons] at small
    refine ⟨[.ofNat (a * 4 + b / 16), .ofNat (b % 16 * 16 + c / 4)], ?_⟩
    have first := whole (a * 4 + b / 16) (by omega)
    have second := whole (b % 16 * 16 + c / 4) (by omega)
    rw [base64Sextets, first, second]
    simp only [List.cons.injEq, and_true]
    omega
  | case5 a b c d rest ih =>
    simp only [List.forall_mem_cons] at small
    obtain ⟨bytes, same⟩ := ih unspent small.2.2.2.2
    refine ⟨.ofNat (a * 4 + b / 16) :: .ofNat (b % 16 * 16 + c / 4) :: .ofNat (c % 4 * 64 + d) :: bytes, ?_⟩
    have first := whole (a * 4 + b / 16) (by omega)
    have second := whole (b % 16 * 16 + c / 4) (by omega)
    have third := whole (c % 4 * 64 + d) (by omega)
    rw [base64Sextets, first, second, third, same]
    simp only [List.cons.injEq, and_true]
    omega

theorem base64Sextet_digit : ∀ sextet < 64, base64Sextet (base64Digit sextet) = some sextet := by
  decide

/-- No digit is the padding. -/
theorem base64Digit_ne : ∀ sextet < 64, base64Digit sextet ≠ 0x3d := by
  decide

theorem mapM_base64Sextet {sextets : List Nat} (small : ∀ sextet ∈ sextets, sextet < 64) :
    (sextets.map base64Digit).mapM base64Sextet = some sextets := by
  induction sextets with
  | nil => rfl
  | cons sextet rest ih =>
    rw [List.forall_mem_cons] at small
    rw [List.map_cons, List.mapM_cons, base64Sextet_digit sextet small.1, ih small.2]
    rfl

theorem base64Sextets_nil {bytes : List UInt8} : base64Sextets bytes = [] ↔ bytes = [] := by
  induction bytes using base64Sextets.induct with
  | case1 => simp [base64Sextets]
  | case2 a => simp [base64Sextets]
  | case3 a b => simp [base64Sextets]
  | case4 a b c rest => simp [base64Sextets]

theorem base64urlDecode_encode {bytes : List UInt8} (some : bytes ≠ []) : base64urlDecode (base64urlEncode bytes) = .ok bytes := by
  have small := base64Sextets_lt bytes
  have guarded : ¬(base64urlEncode bytes = [] ∨ 0x3d ∈ base64urlEncode bytes) := by
    rw [base64urlEncode_eq, List.map_eq_nil_iff, base64Sextets_nil, List.mem_map]
    rintro (none | ⟨sextet, member, padding⟩)
    · exact some none
    · exact base64Digit_ne sextet (small sextet member) padding
  have read : ((base64urlEncode bytes).mapM base64Sextet).bind base64Bytes = .some bytes := by
    rw [base64urlEncode_eq, mapM_base64Sextet small]
    exact base64Bytes_sextets bytes
  rw [base64urlDecode, if_neg guarded, read]
  exact if_neg (not_not_intro rfl)

theorem encode_base64urlDecode {value : Text} {bytes : List UInt8} (decoded : base64urlDecode value = .ok bytes) :
    bytes ≠ [] ∧ base64urlEncode bytes = value := by
  unfold base64urlDecode at decoded
  split at decoded
  · cases decoded
  rename_i guarded
  split at decoded
  · cases decoded
  rename_i found read
  split at decoded
  · cases decoded
  rename_i same
  have same := not_not.mp same
  have equal : found = bytes := Except.ok.inj decoded
  rw [equal] at same
  refine ⟨?_, same⟩
  rintro rfl
  exact guarded (.inl same.symm)

/-- A text is decoded exactly when it is what its bytes are encoded to: no two texts stand for the same bytes. The texts
are those of digits alone, not one too many, and without a set bit behind the last byte. -/
theorem base64url_bijection (value : Text) (bytes : List UInt8) :
    (base64urlDecode value = .ok bytes ↔ bytes ≠ [] ∧ base64urlEncode bytes = value) ∧
      (bytes ≠ [] → ∃! text, base64urlDecode text = .ok bytes) ∧
      ((∃ decoded, base64urlDecode value = .ok decoded) ↔
        value ≠ [] ∧ ∃ sextets, value = sextets.map base64Digit ∧ (∀ sextet ∈ sextets, sextet < 64) ∧ Unspent sextets) := by
  refine ⟨⟨encode_base64urlDecode, ?_⟩, ?_, ?_, ?_⟩
  · rintro ⟨some, rfl⟩
    exact base64urlDecode_encode some
  · intro some
    exact ⟨_, base64urlDecode_encode some, fun text decoded => (encode_base64urlDecode decoded).2.symm⟩
  · rintro ⟨decoded, read⟩
    obtain ⟨some, rfl⟩ := encode_base64urlDecode read
    rw [base64urlEncode_eq]
    refine ⟨?_, _, rfl, base64Sextets_lt decoded, base64Sextets_unspent decoded⟩
    rw [ne_eq, List.map_eq_nil_iff, base64Sextets_nil]
    exact some
  · rintro ⟨some, sextets, rfl, small, unspent⟩
    obtain ⟨decoded, rfl⟩ := sextets_of_unspent unspent small
    have nonempty : decoded ≠ [] := by
      rintro rfl
      exact some rfl
    exact ⟨decoded, base64urlEncode_eq decoded ▸ base64urlDecode_encode nonempty⟩

/-- The byte 255 has one text. -/
theorem last_byte_decodes : base64urlDecode "_w".codePoints = .ok [0xff] ∧ ∃! text, base64urlDecode text = .ok [0xff] :=
  ⟨(base64url_bijection "_w".codePoints [0xff]).1.mpr ⟨List.cons_ne_nil _ _, rfl⟩,
    (base64url_bijection "_w".codePoints [0xff]).2.1 (List.cons_ne_nil _ _)⟩

end Pytitect
