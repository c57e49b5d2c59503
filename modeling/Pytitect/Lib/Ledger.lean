import Mathlib.Data.List.Basic

/-- Something committed under a key, with the instant at which its author began and the one until
which nothing else may be committed under the key. -/
structure Committal (κ ν : Type) where
  key : κ
  value : ν
  startedAt : Int
  retainedUntil : Int

namespace Ledger
variable {κ ν ρ : Type} [DecidableEq κ] {ledger : List (Committal κ ν)} {next : Committal κ ν} {key : κ}

/-- The last committal under a key. -/
def latest (ledger : List (Committal κ ν)) (key : κ) : Option (Committal κ ν) := (ledger.filter (·.key = key)).getLast?

/-- Nobody who began before the end of a key's last committal has committed under the key. -/
inductive Spaced : List (Committal κ ν) → Prop
  | nil : Spaced []
  | snoc {ledger : List (Committal κ ν)} {next : Committal κ ν} : Spaced ledger →
      (∀ prior, latest ledger next.key = some prior → prior.retainedUntil ≤ next.startedAt) → Spaced (ledger ++ [next])

theorem latest_nil : latest ([] : List (Committal κ ν)) key = none := rfl

theorem latest_snoc_self : latest (ledger ++ [next]) next.key = some next := by
  simp [latest, List.filter_append]

theorem latest_snoc_of_ne (other : key ≠ next.key) : latest (ledger ++ [next]) key = latest ledger key := by
  simp [latest, List.filter_append, Ne.symm other]

theorem latest_some {prior : Committal κ ν} (last : latest ledger key = some prior) : prior ∈ ledger ∧ prior.key = key := by
  have member := List.mem_of_getLast? last
  simpa using member

/-- Where each committal ends after its start, the spacing reaches back beyond the last one. -/
theorem Spaced.pairwise (spaced : Spaced ledger) (forward : ∀ committal ∈ ledger, committal.startedAt ≤ committal.retainedUntil) :
    ledger.Pairwise fun earlier later => earlier.key = later.key → earlier.retainedUntil ≤ later.startedAt := by
  induction spaced with
  | nil => exact .nil
  | @snoc ledger next _ free ih =>
    have pairwise := ih fun committal member => forward committal (List.mem_append_left _ member)
    refine List.pairwise_append.mpr ⟨pairwise, List.pairwise_singleton _ _, ?_⟩
    intro earlier member last isNext same
    obtain rfl := List.mem_singleton.mp isNext
    have mine : earlier ∈ ledger.filter (·.key = last.key) := by simp [member, same]
    obtain ⟨front, prior, split⟩ := (List.eq_nil_or_concat' _).resolve_left (List.ne_nil_of_mem mine)
    have isLatest : latest ledger last.key = some prior := by rw [latest, split, List.getLast?_concat]
    have bound := free prior isLatest
    rw [split] at mine
    rcases List.mem_append.mp mine with before | atEnd
    · -- the earlier committal was lapsed before the latest one began
      have ordered := pairwise.filter (·.key = last.key)
      rw [split, List.pairwise_append] at ordered
      obtain ⟨inLedger, samePrior⟩ := latest_some isLatest
      have lapsed := ordered.2.2 earlier before prior (List.mem_singleton_self _) (same.trans samePrior.symm)
      have grows := forward prior (List.mem_append_left _ inLedger)
      omega
    · rw [List.mem_singleton.mp atEnd]
      exact bound

/-- A table holds, for each key, the row of the last committal and nothing else. -/
def Reflects (find : κ → Option ρ) (row : Committal κ ν → ρ) (ledger : List (Committal κ ν)) : Prop :=
  ∀ key, find key = (latest ledger key).map row

theorem Reflects.snoc {find after : κ → Option ρ} {row : Committal κ ν → ρ} (reflects : Reflects find row ledger)
    (stored : after next.key = some (row next)) (others : ∀ other, other ≠ next.key → after other = find other) :
    Reflects after row (ledger ++ [next]) := by
  intro key
  by_cases mine : key = next.key
  · rw [mine, latest_snoc_self, stored, Option.map_some]
  · rw [latest_snoc_of_ne mine, others key mine, reflects key]

theorem Reflects.row {find : κ → Option ρ} {row : Committal κ ν → ρ} (reflects : Reflects find row ledger) {found : ρ}
    (present : find key = some found) : ∃ prior, latest ledger key = some prior ∧ found = row prior := by
  rw [reflects key] at present
  obtain ⟨prior, last, same⟩ := Option.map_eq_some_iff.mp present
  exact ⟨prior, last, same.symm⟩

end Ledger
