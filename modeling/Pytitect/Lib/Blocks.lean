import Mathlib.Tactic.Common

/-- Changes made in nested atomic blocks: those that outermost blocks have committed, and those of
each open block, innermost first. -/
structure Blocks (ε : Type) where
  durable : List ε
  pending : List (List ε)

namespace Blocks
variable {ε : Type}

def empty : Blocks ε := ⟨[], []⟩

/-- Enter one more atomic block. -/
def enter (b : Blocks ε) : Blocks ε := { b with pending := [] :: b.pending }

/-- Make changes in the innermost block. Without one they are committed at once. -/
def write (b : Blocks ε) (changes : List ε) : Blocks ε :=
  match b.pending with
  | [] => { b with durable := b.durable ++ changes }
  | inner :: rest => { b with pending := (inner ++ changes) :: rest }

/-- Leave the innermost block normally: its changes belong to the block around it, and are
committed if there is none. -/
def commit (b : Blocks ε) : Blocks ε :=
  match b.pending with
  | [] => b
  | [inner] => ⟨b.durable ++ inner, []⟩
  | inner :: outer :: rest => { b with pending := (outer ++ inner) :: rest }

/-- Leave the innermost block with an exception. -/
def rollback (b : Blocks ε) : Blocks ε := { b with pending := b.pending.tail }

/-- All changes pass the test. -/
def All (b : Blocks ε) (test : ε → Prop) : Prop := (∀ change ∈ b.durable, test change) ∧ ∀ block ∈ b.pending, ∀ change ∈ block, test change

variable {b : Blocks ε} {change : ε} {changes : List ε} {test : ε → Prop}

theorem durable_write (member : change ∈ b.durable) : change ∈ (b.write changes).durable := by
  unfold write
  split
  · exact List.mem_append_left _ member
  · exact member

theorem durable_commit (member : change ∈ b.durable) : change ∈ b.commit.durable := by
  unfold commit
  split
  · exact member
  · exact List.mem_append_left _ member
  · exact member

/-- In a block that is inside another one nothing is committed. -/
theorem commit_inside {inner outer : List ε} {rest : List (List ε)} (inside : b.pending = inner :: outer :: rest) :
    b.commit.durable = b.durable := by
  rw [commit, inside]

/-- An outermost block commits its changes. -/
theorem commit_outermost {inner : List ε} (outermost : b.pending = [inner]) : b.commit.durable = b.durable ++ inner := by
  rw [commit, outermost]

theorem All.mono {other : ε → Prop} (all : b.All test) (weaker : ∀ change, test change → other change) : b.All other :=
  ⟨fun change member => weaker change (all.1 change member), fun block inBlocks change member => weaker change (all.2 block inBlocks change member)⟩

theorem All.enter (all : b.All test) : b.enter.All test :=
  ⟨all.1, List.forall_mem_cons.mpr ⟨by simp, all.2⟩⟩

theorem All.write (all : b.All test) (fit : ∀ change ∈ changes, test change) : (b.write changes).All test := by
  obtain ⟨durable, pending⟩ := all
  unfold Blocks.write
  split
  · exact ⟨List.forall_mem_append.mpr ⟨durable, fit⟩, pending⟩
  · rename_i inner rest isPending
    rw [isPending, List.forall_mem_cons] at pending
    exact ⟨durable, List.forall_mem_cons.mpr ⟨List.forall_mem_append.mpr ⟨pending.1, fit⟩, pending.2⟩⟩

theorem All.commit (all : b.All test) : b.commit.All test := by
  obtain ⟨durable, pending⟩ := all
  unfold Blocks.commit
  split
  · exact ⟨durable, pending⟩
  · rename_i inner isPending
    rw [isPending, List.forall_mem_cons] at pending
    exact ⟨List.forall_mem_append.mpr ⟨durable, pending.1⟩, by simp⟩
  · rename_i inner outer rest isPending
    rw [isPending, List.forall_mem_cons, List.forall_mem_cons] at pending
    exact ⟨durable, List.forall_mem_cons.mpr ⟨List.forall_mem_append.mpr ⟨pending.2.1, pending.1⟩, pending.2.2⟩⟩

theorem All.rollback (all : b.All test) : b.rollback.All test :=
  ⟨all.1, fun block member => all.2 block (List.mem_of_mem_tail member)⟩

end Blocks
