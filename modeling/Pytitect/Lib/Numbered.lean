import Mathlib.Data.List.Range
import Mathlib.Tactic.Common

/-- The elements carry the numbers 1, 2, 3 and so on, without a gap. -/
def List.Numbered {α : Type} (number : α → Nat) (xs : List α) : Prop := xs.map number = List.range' 1 xs.length

namespace List.Numbered
variable {α : Type} {number : α → Nat} {xs ys : List α}

theorem nil : ([] : List α).Numbered number := rfl

/-- Numbering goes on where it stopped. -/
theorem append (numbered : xs.Numbered number) (next : ys.map number = List.range' (xs.length + 1) ys.length) :
    (xs ++ ys).Numbered number := by
  unfold Numbered at numbered ⊢
  rw [List.map_append, numbered, next, List.length_append, Nat.add_comm xs.length 1]
  exact List.range'_append_1

theorem nodup (numbered : xs.Numbered number) : (xs.map number).Nodup := by
  rw [numbered]
  exact List.nodup_range'

theorem number_getElem (numbered : xs.Numbered number) {i : Nat} (inside : i < xs.length) :
    number xs[i] = i + 1 := by
  have here : (xs.map number)[i]? = some (number xs[i]) := by simp [inside]
  rw [numbered, List.getElem?_range' inside] at here
  have same := Option.some.inj here
  omega

theorem number_le (numbered : xs.Numbered number) {x : α} (member : x ∈ xs) : 1 ≤ number x ∧ number x ≤ xs.length := by
  obtain ⟨i, inside, same⟩ := List.mem_iff_getElem.mp member
  have value := numbered.number_getElem inside
  rw [same] at value
  omega

/-- Every number up to the length is taken. -/
theorem exists_number (numbered : xs.Numbered number) {n : Nat} (low : 1 ≤ n) (high : n ≤ xs.length) :
    ∃ x ∈ xs, number x = n := by
  have inside : n - 1 < xs.length := by omega
  refine ⟨xs[n - 1], List.getElem_mem inside, ?_⟩
  rw [numbered.number_getElem inside]
  omega

theorem take (numbered : xs.Numbered number) (n : Nat) : (xs.take n).Numbered number := by
  unfold Numbered at numbered ⊢
  rw [List.map_take, numbered, List.length_take]
  rcases Nat.le_total n xs.length with short | long
  · rw [Nat.min_eq_left short, List.take_range'_of_length_ge short]
  · rw [Nat.min_eq_right long, List.take_range'_of_length_le long]

/-- The highest number taken is the length. -/
theorem max?_getD (numbered : xs.Numbered number) : (xs.map number).max?.getD 0 = xs.length := by
  rw [numbered]
  cases size : xs.length with
  | zero => rfl
  | succ n =>
    have highest : (List.range' 1 (n + 1)).max? = some (n + 1) := by
      refine List.max?_eq_some_iff.mpr ⟨List.mem_range'_1.mpr (by omega), fun m member => ?_⟩
      have bounds := List.mem_range'_1.mp member
      omega
    rw [highest]
    rfl

/-- The elements with a number beyond `n` are those behind the first `n`. -/
theorem filter_beyond (numbered : xs.Numbered number) (n : Nat) : xs.filter (n < number ·) = xs.drop n := by
  conv_lhs => rw [← List.take_append_drop n xs]
  rw [List.filter_append]
  have none : (xs.take n).filter (n < number ·) = [] := by
    refine List.filter_eq_nil_iff.mpr fun x member => ?_
    have bound := ((numbered.take n).number_le member).2
    have short := List.length_take_le n xs
    simp only [decide_eq_true_eq]
    omega
  have all : (xs.drop n).filter (n < number ·) = xs.drop n := by
    refine List.filter_eq_self.mpr fun x member => ?_
    obtain ⟨i, inside, same⟩ := List.mem_iff_getElem.mp member
    rw [List.length_drop] at inside
    rw [List.getElem_drop] at same
    have value := numbered.number_getElem (by omega : n + i < xs.length)
    rw [same] at value
    simp only [decide_eq_true_eq]
    omega
  rw [none, all, List.nil_append]

/-- The elements with a number up to `n` are the first `n`. -/
theorem filter_upto (numbered : xs.Numbered number) (n : Nat) : xs.filter (number · ≤ n) = xs.take n := by
  conv_lhs => rw [← List.take_append_drop n xs]
  rw [List.filter_append]
  have all : (xs.take n).filter (number · ≤ n) = xs.take n := by
    refine List.filter_eq_self.mpr fun x member => ?_
    have bound := ((numbered.take n).number_le member).2
    have short := List.length_take_le n xs
    simp only [decide_eq_true_eq]
    omega
  have none : (xs.drop n).filter (number · ≤ n) = [] := by
    rw [← numbered.filter_beyond n, List.filter_filter]
    refine List.filter_eq_nil_iff.mpr fun x _ => ?_
    simp only [Bool.and_eq_true, decide_eq_true_eq]
    omega
  rw [all, none, List.append_nil]

/-- The last of a section of a numbered list is numbered by where the section ends. -/
theorem number_getLast (numbered : xs.Numbered number) {n m : Nat} {last : α}
    (found : ((xs.drop n).take m).getLast? = some last) : number last = n + ((xs.drop n).take m).length := by
  have nonempty : (xs.drop n).take m ≠ [] := by
    intro none
    rw [none] at found
    cases found
  have positive := List.length_pos_iff.mpr nonempty
  have sizes : ((xs.drop n).take m).length ≤ xs.length - n := by
    rw [List.length_take, List.length_drop]
    omega
  rw [List.getLast?_eq_getElem?, List.getElem?_take_of_lt (by rw [List.length_take] at *; omega), List.getElem?_drop] at found
  have inside : n + (((xs.drop n).take m).length - 1) < xs.length := by omega
  rw [List.getElem?_eq_getElem inside] at found
  have value := numbered.number_getElem inside
  rw [Option.some.inj found] at value
  omega

end List.Numbered

/-- What is read behind a position stays there when the list grows at its end. -/
theorem List.read_mono {α : Type} {xs ys zs : List α} {n : Nat} (read : ys = (xs.drop n).take ys.length) (grown : xs <+: zs) :
    ys = (zs.drop n).take ys.length := by
  obtain ⟨added, rfl⟩ := grown
  have short : ys.length ≤ (xs.drop n).length := by
    have sizes := congrArg List.length read
    rw [List.length_take] at sizes
    omega
  rw [List.drop_append, List.take_append_of_le_length short]
  exact read

/-- `ys` is the section of `xs` behind its first `n` elements. -/
def List.Follows {α : Type} (xs : List α) (n : Nat) (ys : List α) : Prop := n ≤ xs.length ∧ xs.take n ++ ys <+: xs

namespace List.Follows
variable {α : Type} {number : α → Nat} {xs ys zs : List α} {n : Nat}

theorem of_take (inside : n ≤ xs.length) (m : Nat) : xs.Follows n ((xs.drop n).take m) := by
  refine ⟨inside, ?_⟩
  rw [← List.take_add]
  exact List.take_prefix _ _

theorem take_eq (follows : xs.Follows n ys) : xs.take (n + ys.length) = xs.take n ++ ys := by
  have whole := List.prefix_iff_eq_take.mp follows.2
  rw [List.length_append, List.length_take, Nat.min_eq_left follows.1] at whole
  exact whole.symm

theorem length_le (follows : xs.Follows n ys) : n + ys.length ≤ xs.length := by
  have short := follows.2.length_le
  rw [List.length_append, List.length_take, Nat.min_eq_left follows.1] at short
  exact short

/-- A section stays where it is when the list grows at its end. -/
theorem mono (follows : xs.Follows n ys) (grown : xs <+: zs) : zs.Follows n ys := by
  refine ⟨Nat.le_trans follows.1 grown.length_le, ?_⟩
  obtain ⟨added, rfl⟩ := grown
  rw [List.take_append_of_le_length follows.1]
  exact follows.2.trans (List.prefix_append _ _)

theorem eq_take (follows : xs.Follows n ys) : ys = (xs.drop n).take ys.length := by
  have both := follows.take_eq
  rw [List.take_add] at both
  exact (List.append_cancel_left both).symm

/-- The number of its last element says where the section ends. -/
theorem number_last (follows : xs.Follows n ys) (numbered : xs.Numbered number) :
    (ys.getLast?.map number).getD n = n + ys.length := by
  cases last : ys.getLast? with
  | none =>
    rw [List.getLast?_eq_none_iff] at last
    simp [last]
  | some y =>
    have section_ := follows.eq_take
    rw [section_] at last
    have value := numbered.number_getLast last
    rw [← section_] at value
    exact value

/-- Cutting a section off behind a number leaves its first elements. -/
theorem filter_upto_eq (follows : xs.Follows n ys) (numbered : xs.Numbered number) (m : Nat) :
    ys.filter (number · ≤ m) = (xs.drop n).take (min m (n + ys.length) - n) := by
  have beyond := (numbered.take (n + ys.length)).filter_beyond n
  have section_ : (xs.take (n + ys.length)).drop n = ys := by
    rw [follows.take_eq, List.drop_append_of_le_length (by simp [follows.1]), List.drop_take, Nat.sub_self,
      List.take_zero, List.nil_append]
  rw [section_] at beyond
  conv_lhs => rw [← beyond]
  rw [List.filter_filter]
  have swap : ∀ x ∈ xs.take (n + ys.length),
      (decide (number x ≤ m) && decide (n < number x)) = (decide (n < number x) && decide (number x ≤ m)) :=
    fun x _ => Bool.and_comm _ _
  rw [List.filter_congr swap, ← List.filter_filter, (numbered.take _).filter_upto m, List.take_take,
    (numbered.take _).filter_beyond n, List.drop_take]

/-- Cutting a section off behind a number leaves a section. -/
theorem filter_upto (follows : xs.Follows n ys) (numbered : xs.Numbered number) (m : Nat) :
    xs.Follows n (ys.filter (number · ≤ m)) := by
  rw [follows.filter_upto_eq numbered m]
  exact of_take follows.1 _

end List.Follows
